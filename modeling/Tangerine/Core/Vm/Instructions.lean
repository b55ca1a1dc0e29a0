import Mathlib.Data.Int.Bitwise
import Tangerine.Core.Vm.GovernanceStorage
import Tangerine.Library.Loop

/-! The arithmetic, comparison, bitwise and shift instructions (`core/vm/instructions.go`). -/

namespace Tangerine.Core.Vm

open Tangerine.Library

/-- `tt255`. -/
def tt255 : Int := 2 ^ 255

/-- `tt256`. -/
def tt256 : Int := 2 ^ 256

/-- `tt256m1`. -/
def tt256m1 : Int := tt256 - 1

/-- `math.U256`: `x & tt256m1`. -/
def U256 (x : Int) : Int := Int.land x tt256m1

/-- `math.S256`. -/
def S256 (x : Int) : Int := if x < tt255 then x else x - tt256

/-- `wordBits` on a 64-bit platform. -/
def wordBits : Nat := 64

/-- `big.Int.Bits`: the words of `|x|`, the least significant first. -/
def bigBits (x : Int) : List Nat := Nat.digits (2 ^ wordBits) x.natAbs

/-- `bigEndianByteAt`: byte `n` of `bigint`, counting from the least significant. -/
def bigEndianByteAt (bigint : Int) (n : Nat) : Nat :=
  let words := bigBits bigint
  let i := n / (wordBits / 8)
  if i ≥ words.length then 0
  else (words.getD i 0 >>> (8 * (n % (wordBits / 8)))) % 256

/-- `math.Byte`: byte `n` of `bigint` padded to `padlength` bytes, `n = 0` the most significant. -/
def mathByte (bigint : Int) (padlength n : Nat) : Nat :=
  if n ≥ padlength then 0 else bigEndianByteAt bigint (padlength - 1 - n)

/-- The inner loop of `math.Exp` over `i` more bits of `word`, on `(result, base)`. -/
def expWord (word : Nat) (state : Int × Int) : Nat → Int × Int
  | 0 => state
  | i + 1 =>
    let result := if word &&& 1 = 1 then U256 (state.1 * state.2) else state.1
    expWord (word >>> 1) (result, U256 (state.2 * state.2)) i

/-- `math.Exp`: exponentiation by squaring over the words of the exponent. -/
def mathExp (base exponent : Int) : Int :=
  ((bigBits exponent).foldl (fun state word => expWord word state wordBits) (1, base)).1

/-- `power2`, which `init` fills with the powers of two below `2^256`. -/
def power2 (i : Nat) : Int := 2 ^ i

/-- The stack, its top first. -/
abbrev Stack := List Int

/-- `Stack.pop`. -/
def pop : Stack → Except Halt (Int × Stack)
  | [] => .error (.panic "index out of range")
  | x :: rest => .ok (x, rest)

/-- `Stack.peek`. -/
def peek : Stack → Except Halt Int
  | [] => .error (.panic "index out of range")
  | x :: _ => .ok x

/-- The peeked item, updated in place. -/
def setTop (v : Int) : Stack → Stack
  | [] => []
  | _ :: rest => v :: rest

/-- A handler that pops `x`, peeks `y` and updates `y` in place to `f x y`. -/
def peekBinary (f : Int → Int → Int) (stack : Stack) : Except Halt Stack := do
  let (x, stack) ← pop stack
  let y ← peek stack
  pure (setTop (f x y) stack)

/-- A handler that pops `x` and `y` and pushes `f x y`. -/
def popBinary (f : Int → Int → Int) (stack : Stack) : Except Halt Stack := do
  let (x, stack) ← pop stack
  let (y, stack) ← pop stack
  pure (f x y :: stack)

/-- A handler that pops `x`, `y` and `z` and pushes `f x y z`. -/
def popTernary (f : Int → Int → Int → Int) (stack : Stack) : Except Halt Stack := do
  let (x, stack) ← pop stack
  let (y, stack) ← pop stack
  let (z, stack) ← pop stack
  pure (f x y z :: stack)

/-- A handler that peeks `x` and updates it in place to `f x`. -/
def peekUnary (f : Int → Int) (stack : Stack) : Except Halt Stack := do
  let x ← peek stack
  pure (setTop (f x) stack)

/-- `opAdd`. -/
def opAdd : Stack → Except Halt Stack := peekBinary fun x y => U256 (x + y)

/-- `opSub`. -/
def opSub : Stack → Except Halt Stack := peekBinary fun x y => U256 (x - y)

/-- `opMul`. -/
def opMul : Stack → Except Halt Stack := popBinary fun x y => U256 (x * y)

/-- `opDiv`. -/
def opDiv : Stack → Except Halt Stack := peekBinary fun x y => if y ≠ 0 then U256 (x / y) else 0

/-- `opSdiv`: the quotient of the absolute values, negated when the signs differ. -/
def opSdiv : Stack → Except Halt Stack := popBinary fun x y =>
  let x := S256 x
  let y := S256 y
  if y = 0 ∨ x = 0 then 0
  else if x.sign ≠ y.sign then U256 (-(|x| / |y|))
  else U256 (|x| / |y|)

/-- `opMod`. -/
def opMod : Stack → Except Halt Stack := popBinary fun x y => if y = 0 then 0 else U256 (x % y)

/-- `opSmod`: the remainder of the absolute values, negated for a negative dividend. -/
def opSmod : Stack → Except Halt Stack := popBinary fun x y =>
  let x := S256 x
  let y := S256 y
  if y = 0 then 0
  else if x < 0 then U256 (-(|x| % |y|))
  else U256 (|x| % |y|)

/-- `opExp`: powers of two below `2^256` from the table, others by `math.Exp`. -/
def opExp : Stack → Except Halt Stack := popBinary fun base exponent =>
  if base = 2 ∧ exponent < 256 then power2 exponent.toNat else mathExp base exponent

/-- `opSignExtend`: for `back < 31`, the bits of `num` from `back * 8 + 7` on copy that bit. -/
def opSignExtend (stack : Stack) : Except Halt Stack := do
  let (back, stack) ← pop stack
  if back < 31 then
    let bit := uint64 back.natAbs * 8 + 7
    let (num, stack) ← pop stack
    let mask : Int := ((1 : Int) <<< bit) - 1
    let num := if num.testBit bit then Int.lor num (Int.lnot mask) else Int.land num mask
    pure (U256 num :: stack)
  else pure stack

/-- `opNot`. -/
def opNot : Stack → Except Halt Stack := peekUnary fun x => U256 (Int.lnot x)

/-- `opLt`. -/
def opLt : Stack → Except Halt Stack := peekBinary fun x y => if x < y then 1 else 0

/-- `opGt`. -/
def opGt : Stack → Except Halt Stack := peekBinary fun x y => if x > y then 1 else 0

/-- `opSlt`: an item from `tt255` on is negative. -/
def opSlt : Stack → Except Halt Stack := peekBinary fun x y =>
  if x ≥ tt255 ∧ y < tt255 then 1
  else if x < tt255 ∧ y ≥ tt255 then 0
  else if x < y then 1 else 0

/-- `opSgt`. -/
def opSgt : Stack → Except Halt Stack := peekBinary fun x y =>
  if x ≥ tt255 ∧ y < tt255 then 0
  else if x < tt255 ∧ y ≥ tt255 then 1
  else if x > y then 1 else 0

/-- `opEq`. -/
def opEq : Stack → Except Halt Stack := peekBinary fun x y => if x = y then 1 else 0

/-- `opIszero`. -/
def opIszero : Stack → Except Halt Stack := peekUnary fun x => if x > 0 then 0 else 1

/-- `opAnd`. -/
def opAnd : Stack → Except Halt Stack := popBinary Int.land

/-- `opOr`. -/
def opOr : Stack → Except Halt Stack := peekBinary Int.lor

/-- `opXor`. -/
def opXor : Stack → Except Halt Stack := peekBinary Int.xor

/-- `opByte`: `th` is a small nonnegative item where it is used. -/
def opByte : Stack → Except Halt Stack := peekBinary fun th val =>
  if th < 32 then mathByte val 32 th.toNat else 0

/-- `opAddmod`. -/
def opAddmod : Stack → Except Halt Stack := popTernary fun x y z =>
  if z > 0 then U256 ((x + y) % z) else 0

/-- `opMulmod`. -/
def opMulmod : Stack → Except Halt Stack := popTernary fun x y z =>
  if z > 0 then U256 ((x * y) % z) else 0

/-- `opSHL`. -/
def opSHL : Stack → Except Halt Stack := peekBinary fun shift value =>
  let shift := U256 shift
  let value := U256 value
  if shift ≥ 256 then 0 else U256 (value <<< uint64 shift.natAbs)

/-- `opSHR`. -/
def opSHR : Stack → Except Halt Stack := peekBinary fun shift value =>
  let shift := U256 shift
  let value := U256 value
  if shift ≥ 256 then 0 else U256 (value >>> uint64 shift.natAbs)

/-- `opSAR`. -/
def opSAR : Stack → Except Halt Stack := popBinary fun shift value =>
  let shift := U256 shift
  let value := S256 value
  if shift ≥ 256 then U256 (if value ≥ 0 then 0 else -1)
  else U256 (value >>> uint64 shift.natAbs)

/-- The arithmetic, comparison, bitwise and shift opcodes of the jump table. -/
inductive ArithOp where
  | add | mul | sub | div | sdiv | mod | smod | addmod | mulmod | exp | signextend
  | lt | gt | slt | sgt | eq | iszero | and | or | xor | not | byte | shl | shr | sar
deriving DecidableEq, Repr

namespace ArithOp

/-- The `execute` of each opcode's entry in the jump table. -/
def execute : ArithOp → Stack → Except Halt Stack
  | add => opAdd
  | mul => opMul
  | sub => opSub
  | div => opDiv
  | sdiv => opSdiv
  | mod => opMod
  | smod => opSmod
  | addmod => opAddmod
  | mulmod => opMulmod
  | exp => opExp
  | signextend => opSignExtend
  | lt => opLt
  | gt => opGt
  | slt => opSlt
  | sgt => opSgt
  | eq => opEq
  | iszero => opIszero
  | and => opAnd
  | or => opOr
  | xor => opXor
  | not => opNot
  | byte => opByte
  | shl => opSHL
  | shr => opSHR
  | sar => opSAR

/-- The items each entry's `validateStack` requires: its operands. -/
def pops : ArithOp → Nat
  | iszero | not => 1
  | addmod | mulmod => 3
  | _ => 2

end ArithOp

end Tangerine.Core.Vm
