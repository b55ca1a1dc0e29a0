import Tangerine.Library.BigEndian
import Tangerine.Rlp.Typecache

/-! The encoder of `rlp/encode.go`. -/

namespace Tangerine.Rlp

open Tangerine.Library

/-- `putint`: `i` big-endian in the fewest bytes, one at least. -/
def putint (i : Nat) : List UInt8 :=
  if i < 256 then [UInt8.ofNat i] else BigEndian.toBytes i

/-- `intsize`: the number of bytes `putint` writes for `i`. -/
def intsize (i : Nat) : Nat := (putint i).length

/-- `headsize`: the size of the header of a string or a list of `size` bytes. -/
def headsize (size : Nat) : Nat :=
  if size < 56 then 1 else 1 + intsize size

/-- `puthead`: the header of a string or a list of `size` bytes. -/
def puthead (smalltag largetag : UInt8) (size : Nat) : List UInt8 :=
  if size < 56 then [smalltag + UInt8.ofNat size]
  else (largetag + UInt8.ofNat (intsize size)) :: putint size

/-- `listhead`: where a list's header goes in the string data, and the list's size. -/
structure ListHead where
  offset : Nat
  size : Nat

/-- `listhead.encode`. -/
def ListHead.encode (head : ListHead) : List UInt8 := puthead 0xC0 0xF7 head.size

/-- `encbuf`: the string data, the list headers, and the size of the closed ones. -/
structure EncBuf where
  str : List UInt8 := []
  lheads : List ListHead := []
  lhsize : Nat := 0

namespace EncBuf

/-- Appends to the string data (`w.str = append(w.str, ...)`). -/
def append (w : EncBuf) (bytes : List UInt8) : EncBuf := { w with str := w.str ++ bytes }

/-- `size`: the length of the output so far. -/
def size (w : EncBuf) : Nat := w.str.length + w.lhsize

/-- `encodeStringHeader`. -/
def encodeStringHeader (w : EncBuf) (size : Nat) : EncBuf :=
  if size < 56 then w.append [0x80 + UInt8.ofNat size]
  else w.append ((0xB7 + UInt8.ofNat (intsize size)) :: putint size)

/-- `encodeString`: a single byte below `0x80` is its own encoding. -/
def encodeString (w : EncBuf) (b : List UInt8) : EncBuf :=
  match b with
  | [byte] => if byte ≤ 0x7F then w.append [byte] else (w.encodeStringHeader 1).append b
  | _ => (w.encodeStringHeader b.length).append b

/-- `list`: the slot's index stands for the pointer the source returns. -/
def list (w : EncBuf) : Nat × EncBuf :=
  (w.lheads.length, { w with lheads := w.lheads ++ [⟨w.str.length, w.lhsize⟩] })

/-- `listEnd`: sizes the list opened at `index` by what was written since. -/
def listEnd (w : EncBuf) (index : Nat) : EncBuf :=
  let head := w.lheads.getD index ⟨0, 0⟩
  let size := w.size - head.offset - head.size
  { w with
    lheads := w.lheads.set index { head with size := size }
    lhsize := if size < 56 then w.lhsize + 1 else w.lhsize + (1 + intsize size) }

/-- The string data from `strpos` on with the headers spliced in at their offsets. -/
def splice (str : List UInt8) : Nat → List ListHead → List UInt8
  | strpos, [] => str.drop strpos
  | strpos, head :: heads =>
    (str.drop strpos).take (head.offset - strpos) ++ head.encode ++ splice str head.offset heads

/-- `toBytes`. -/
def toBytes (w : EncBuf) : List UInt8 := splice w.str 0 w.lheads

/-- One iteration of `toWriter`'s loop over the headers. -/
def writeHead (w : EncBuf) (acc : Nat × List (List UInt8)) (head : ListHead) :
    Nat × List (List UInt8) :=
  let (strpos, writes) := acc
  let (strpos, writes) :=
    if strpos < head.offset then
      let chunk := (w.str.drop strpos).take (head.offset - strpos)
      (strpos + chunk.length, writes ++ [chunk])
    else (strpos, writes)
  (strpos, writes ++ [head.encode])

/-- `toWriter`, into a writer that takes every write whole: the writes, in order. -/
def toWriter (w : EncBuf) : List (List UInt8) :=
  let (strpos, writes) := w.lheads.foldl w.writeHead (0, [])
  if strpos < w.str.length then writes ++ [w.str.drop strpos] else writes

end EncBuf

/-- `encReader`: the buffer, `none` once EOF was seen, and the position in it. -/
structure EncReader where
  buf : Option EncBuf
  lhpos : Nat
  strpos : Nat
  piece : Option (List UInt8)

namespace EncReader

/-- `next`: the next piece to be read, `none` at EOF. -/
def next (r : EncReader) : Option (List UInt8) × EncReader :=
  match r.buf with
  | none => (none, r)
  | some buf =>
    match r.piece with
    | some piece => (some piece, r)
    | none =>
      match buf.lheads[r.lhpos]? with
      | some head =>
        if r.strpos < head.offset then
          -- string data before the header
          (some ((buf.str.drop r.strpos).take (head.offset - r.strpos)),
            { r with strpos := head.offset })
        else (some head.encode, { r with lhpos := r.lhpos + 1 })
      | none =>
        if r.strpos < buf.str.length then
          (some (buf.str.drop r.strpos), { r with strpos := buf.str.length })
        else (none, r)

/-- The furthest the string position can go. -/
def reach (buf : EncBuf) : Nat := buf.lheads.foldl (fun m head => max m head.offset) buf.str.length

/-- What the loop of `Read` goes down along. -/
def progress (r : EncReader) : Nat :=
  match r.buf with
  | none => 0
  | some buf =>
    2 * (2 * (buf.lheads.length - r.lhpos) + (reach buf - r.strpos)) +
      if r.piece.isSome then 1 else 0

theorem le_foldl_max (heads : List ListHead) (init : Nat) :
    init ≤ heads.foldl (fun m head => max m head.offset) init ∧
      ∀ head ∈ heads, head.offset ≤ heads.foldl (fun m head => max m head.offset) init := by
  induction heads generalizing init with
  | nil => simp
  | cons head heads inductionHypothesis =>
      obtain ⟨above, bounded⟩ := inductionHypothesis (max init head.offset)
      refine ⟨le_trans (le_max_left _ _) above, ?_⟩
      intro head' member
      rcases List.mem_cons.mp member with rfl | later
      · exact le_trans (le_max_right _ _) above
      · exact bounded head' later

/-- Taking a piece, and dropping it once read whole, brings the loop closer to EOF. -/
theorem progress_next {r r' : EncReader} {piece : List UInt8} (taken : r.next = (some piece, r')) :
    progress { r' with piece := none } < progress r := by
  unfold next at taken
  cases found : r.buf with
  | none => simp [found] at taken
  | some buf =>
      simp only [found] at taken
      cases held : r.piece with
      | some _ =>
          simp only [held, Prod.mk.injEq] at taken
          obtain ⟨-, rfl⟩ := taken
          simp [progress, found, held]
      | none =>
          simp only [held] at taken
          have bounds := le_foldl_max buf.lheads buf.str.length
          cases looked : buf.lheads[r.lhpos]? with
          | some head =>
              simp only [looked] at taken
              have inside : r.lhpos < buf.lheads.length := (List.getElem?_eq_some_iff.mp looked).1
              have placed : head.offset ≤ reach buf := bounds.2 head (List.mem_of_getElem? looked)
              split_ifs at taken with before
              · simp only [Prod.mk.injEq] at taken
                obtain ⟨-, rfl⟩ := taken
                simp only [progress, found, held]
                simp
                omega
              · simp only [Prod.mk.injEq] at taken
                obtain ⟨-, rfl⟩ := taken
                simp only [progress, found, held]
                simp
                omega
          | none =>
              simp only [looked] at taken
              have placed : buf.str.length ≤ reach buf := bounds.1
              split_ifs at taken with before
              · simp only [Prod.mk.injEq] at taken
                obtain ⟨-, rfl⟩ := taken
                simp only [progress, found, held]
                simp
                omega
              · simp at taken

set_option linter.unusedVariables false in
/-- The loop of `Read` into a buffer of `k` bytes, with `n` read so far. -/
def readLoop (k : Nat) (n : List UInt8) (r : EncReader) : List UInt8 × EncReader × Bool :=
  match taken : r.next with
  | (none, r') =>
    -- the buffer is released at EOF
    (n, { r' with piece := none, buf := none }, true)
  | (some piece, r') =>
    let nn := min (k - n.length) piece.length
    let n := n ++ piece.take nn
    if nn < piece.length then (n, { r' with piece := some (piece.drop nn) }, false)
    else readLoop k n { r' with piece := none }
termination_by progress r
decreasing_by exact progress_next taken

/-- `Read` into a buffer of `k` bytes. -/
def read (r : EncReader) (k : Nat) : List UInt8 × EncReader × Bool := readLoop k [] r

end EncReader

/-- `writeUint`. -/
def writeUint (v : Value) (w : EncBuf) : EncBuf :=
  let i := v.toUint
  if i = 0 then w.append [0x80]
  else if i < 128 then w.append [UInt8.ofNat i]
  else w.append ((0x80 + UInt8.ofNat (intsize i)) :: putint i)

/-- `writeBool`. -/
def writeBool (v : Value) (w : EncBuf) : EncBuf :=
  if v.toBool then w.append [0x01] else w.append [0x80]

/-- `writeBigInt`: `i.Bytes()` is the shortest big-endian string of its magnitude. -/
def writeBigInt (i : Int) (w : EncBuf) : Except Error EncBuf :=
  if i < 0 then .error .negativeBigInt
  else if i = 0 then .ok (w.append [0x80])
  else .ok (w.encodeString (BigEndian.toBytes i.toNat))

mutual

/-- The writer `makeWriter` builds for a type under a field's tags. -/
def writer : Ty → Tags → Value → EncBuf → Except Error EncBuf
  | .rawValue, _, v, w => .ok (w.append v.toBytes)
  | .ptr .bigInt, _, v, w =>
    -- `writeBigIntPtr`
    match v.deref with
    | none => .ok (w.append [0x80])
    | some i => writeBigInt i.toBigInt w
  | .bigInt, _, v, w => writeBigInt v.toBigInt w
  | .uint _, _, v, w => .ok (writeUint v w)
  | .bool, _, v, w => .ok (writeBool v w)
  | .string, _, v, w => .ok (w.encodeString v.toBytes)
  | .slice elem, ts, v, w =>
    -- `writeBytes`, or the writer of `makeSliceWriter`
    if elem.isByte then .ok (w.encodeString v.toBytes)
    else if ts.tail then v.elems.foldlM (fun w x => writer elem {} x w) w
    else
      let (index, w) := w.list
      (v.elems.foldlM (fun w x => writer elem {} x w) w).map (·.listEnd index)
  | .array _ elem, _, v, w =>
    -- `writeByteArray`, or the writer of `makeSliceWriter`
    if elem.isByte then .ok (w.encodeString v.toBytes)
    else
      let (index, w) := w.list
      (v.elems.foldlM (fun w x => writer elem {} x w) w).map (·.listEnd index)
  | .struct fields, _, v, w =>
    let (index, w) := w.list
    (writeFields (.struct fields) fields.length v.elems fields 0 w).map (·.listEnd index)
  | .ptr elem, _, v, w =>
    match v.deref with
    | some target => writer elem {} target w
    | none =>
      -- the `nilfunc` of `makePtrWriter`
      if elem.isArrayKind && (elem.arrayElem.map Ty.isByte).getD false then .ok (w.append [0x80])
      else if elem.isStructKind || elem.isArrayKind then
        let (index, w) := w.list
        .ok (w.listEnd index)
      else writer elem {} elem.zero w

/-- The fields of a struct value from index `index` on. -/
def writeFields (typ : Ty) (count : Nat) (values : List Value) :
    List (Field Ty) → Nat → EncBuf → Except Error EncBuf
  | [], _, w => .ok w
  | field :: rest, index, w =>
    if field.exported then
      match parseStructTag typ (index = count - 1) field with
      | .error err => .error err
      | .ok tags =>
        if tags.ignored then writeFields typ count values rest (index + 1) w
        else
          writer field.type tags (values.getD index .nil) w >>=
            writeFields typ count values rest (index + 1)
    else writeFields typ count values rest (index + 1) w

end

/-- `EncodeToBytes`: the type's info is built first, then the value written. -/
def encodeToBytes (ty : Ty) (v : Value) : Except Error (List UInt8) :=
  ty.typeInfo >>= fun () => (writer ty {} v {}).map EncBuf.toBytes

/-- `Encode` into a writer that takes every write whole: the writes. -/
def encode (ty : Ty) (v : Value) : Except Error (List (List UInt8)) :=
  ty.typeInfo >>= fun () => (writer ty {} v {}).map EncBuf.toWriter

/-- `EncodeToReader`: the size of the encoding, and a reader of it. -/
def encodeToReader (ty : Ty) (v : Value) : Except Error (Nat × EncReader) :=
  ty.typeInfo >>= fun () => (writer ty {} v {}).map fun eb => (eb.size, ⟨some eb, 0, 0, none⟩)

end Tangerine.Rlp
