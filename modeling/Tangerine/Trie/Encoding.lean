import Tangerine.Common.Types

/-! The three encodings of trie keys (`trie/encoding.go`): KEYBYTES, HEX and COMPACT. -/

namespace Tangerine.Trie

open Tangerine.Common

/-- A byte of a HEX key: a nibble, or the terminator 16. -/
abbrev Nibble := Fin 17

/-- The terminator that ends the HEX key of a value. -/
def terminator : Nibble := 16

/-- `keybytesToHex`: each byte split into its two nibbles, high first, then the terminator. -/
def keybytesToHex (str : Bytes) : List Nibble :=
  str.flatMap (fun b => [Fin.ofNat 17 (b.toNat / 16), Fin.ofNat 17 (b.toNat % 16)]) ++ [terminator]

/-- `hasTerm`: whether a HEX key ends in the terminator. -/
def hasTerm (s : List Nibble) : Bool := s.getLast? == some terminator

/-- `decodeNibbles`: the nibbles packed two a byte, high nibble first. -/
def decodeNibbles : List Nibble → Bytes
  | high :: low :: rest =>
    (UInt8.ofNat high.val <<< 4 ||| UInt8.ofNat low.val) :: decodeNibbles rest
  | _ => []

/-- `hexToCompact`: the flag byte, then the remaining nibbles packed. -/
def hexToCompact (hex : List Nibble) : Bytes :=
  let terminated := hasTerm hex
  let flag : UInt8 := (if terminated then (1 : UInt8) else 0) <<< 5
  let hex := if terminated then hex.dropLast else hex
  if hex.length &&& 1 = 1 then
    (flag ||| ((1 : UInt8) <<< 4) ||| UInt8.ofNat (hex.headD 0).val) :: decodeNibbles hex.tail
  else flag :: decodeNibbles hex

/-- `compactToHex`: the flag byte's nibbles dropped, the terminator kept when flagged. -/
def compactToHex (compact : Bytes) : List Nibble :=
  if compact = [] then [] else
  let base := keybytesToHex compact
  -- delete terminator flag
  let base := if (base.headD 0).val < 2 then base.dropLast else base
  -- apply odd flag
  let chop := 2 - ((base.headD 0).val &&& 1)
  base.drop chop

/-- `hexToKeybytes`: an even HEX key packed back into bytes; an odd one panics. -/
def hexToKeybytes (hex : List Nibble) : Option Bytes :=
  let hex := if hasTerm hex then hex.dropLast else hex
  if hex.length &&& 1 ≠ 0 then none else some (decodeNibbles hex)

/-- `prefixLen`: the length of the common prefix of two keys. -/
def prefixLen : List Nibble → List Nibble → Nat
  | x :: a, y :: b => if x = y then prefixLen a b + 1 else 0
  | _, _ => 0

end Tangerine.Trie
