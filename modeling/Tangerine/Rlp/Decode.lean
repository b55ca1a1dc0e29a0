import Tangerine.Library.StateExcept
import Tangerine.Rlp.Encode

/-! The decoder of `rlp/decode.go`: the `Stream` and the decoders `makeDecoder` builds on it. -/

namespace Tangerine.Rlp

open Tangerine.Library

/-- `Kind`: what the header ahead announces. -/
inductive Kind where
  | byte
  | string
  | list
deriving DecidableEq, Repr

/-- `listpos`: an open list, its size and how many of its bytes were read. -/
structure ListPos where
  pos : Nat
  size : Nat

/-- `Stream`; `kind` is `none` where the source holds `-1`, the innermost list heads `stack`. -/
structure Stream where
  input : List UInt8
  remaining : Nat
  limited : Bool
  kind : Option Kind
  size : Nat
  byteval : UInt8
  kinderr : Option Error
  stack : List ListPos

/-- A method of `Stream`: it may fail, and leaves the stream as it got it to. -/
abbrev StreamM := ExceptT Error (StateM Stream)

/-- The outcome of `x` as a value, the stream left as `x` left it. -/
def attempt {α : Type} (x : StreamM α) : StreamM (Except Error α) :=
  tryCatch (Except.ok <$> x) fun err => pure (.error err)

/-- `NewStream` over a byte slice with its length as the input limit. -/
def newStream (b : List UInt8) : Stream where
  input := b
  remaining := b.length
  limited := true
  kind := none
  size := 0
  byteval := 0
  kinderr := none
  stack := []

namespace Stream

/-- Re-arms `Kind` (`s.kind = -1`). -/
def rearm : StreamM Unit := modify fun s => { s with kind := none }

/-- `willRead`: `n` bytes are taken from the innermost list and from the input limit. -/
def willRead (n : Nat) : StreamM Unit := do
  rearm
  let s ← get
  match s.stack with
  | tos :: rest =>
    if tos.size - tos.pos < n then throw .elemTooLarge
    set { s with stack := { tos with pos := tos.pos + n } :: rest }
  | [] => pure ()
  let s ← get
  if s.limited then
    if s.remaining < n then throw .valueTooLarge
    set { s with remaining := s.remaining - n }

/-- `readByte`. -/
def readByte : StreamM UInt8 := do
  willRead 1
  let s ← get
  match s.input with
  | [] => throw .unexpectedEOF
  | b :: rest =>
    set { s with input := rest }
    pure b

/-- `readFull` of a buffer of `n` bytes: what the reader has of them is taken. -/
def readFull (n : Nat) : StreamM (List UInt8) := do
  willRead n
  let s ← get
  set { s with input := s.input.drop n }
  if s.input.length < n then throw .unexpectedEOF
  pure (s.input.take n)

/-- `readUint` of `size` bytes, at most eight: a leading zero byte is `ErrCanonSize`. -/
def readUint (size : Nat) : StreamM Nat :=
  match size with
  | 0 => do
    rearm
    pure 0
  | 1 => do
    let b ← readByte
    pure b.toNat
  | _ => do
    let bytes ← readFull size
    if bytes.head? = some 0 then throw .canonSize
    pure (BigEndian.ofBytes bytes)

/-- The size of a long-form header: `sizesize` bytes that must not stand for less than 56. -/
def readLongSize (kind : Kind) (sizesize : Nat) : StreamM (Kind × Nat × Option Error) := do
  match ← attempt (readUint sizesize) with
  | .error err => pure (kind, 0, some err)
  | .ok size => pure (kind, size, if size < 56 then some .canonSize else none)

/-- `readKind`: the kind and size of the value ahead, beside an error as the source returns them. -/
def readKind : StreamM (Kind × Nat × Option Error) := do
  match ← attempt readByte with
  | .error err =>
    let s ← get
    -- at the top level, running out of input is the end of the input
    let err := match err, s.stack with
      | .unexpectedEOF, [] => Error.eof
      | .valueTooLarge, [] => Error.eof
      | err, _ => err
    pure (.byte, 0, some err)
  | .ok b =>
    modify fun s => { s with byteval := 0 }
    if b < 0x80 then
      modify fun s => { s with byteval := b }
      pure (.byte, 0, none)
    else if b < 0xB8 then pure (.string, (b - 0x80).toNat, none)
    else if b < 0xC0 then readLongSize .string (b - 0xB7).toNat
    else if b < 0xF8 then pure (.list, (b - 0xC0).toNat, none)
    else readLongSize .list (b - 0xF7).toNat

/-- `Kind`: the cached kind and size of the value ahead, or those of the header read now. -/
def nextKind : StreamM (Kind × Nat) := do
  let s ← get
  match s.kind with
  | some k =>
    match s.kinderr with
    | some err => throw err
    | none => pure (k, s.size)
  | none =>
    set { s with kinderr := none }
    -- at the end of the innermost list nothing is read
    if let tos :: _ := s.stack then
      if tos.pos = tos.size then throw .eol
    let (k, size, err) ← readKind
    let s ← get
    let err := match err, s.stack with
      | some err, _ => some err
      | none, [] => if s.limited && s.remaining < size then some .valueTooLarge else none
      | none, tos :: _ => if tos.size - tos.pos < size then some .elemTooLarge else none
    set { s with kind := some k, size := size, kinderr := err }
    match err with
    | some err => throw err
    | none => pure (k, size)

/-- `Bytes`: the content of a string; a single byte below `0x80` must stand alone. -/
def bytes : StreamM (List UInt8) := do
  let (k, size) ← nextKind
  match k with
  | .byte =>
    rearm
    pure [(← get).byteval]
  | .string =>
    let b ← readFull size
    if size = 1 ∧ (b.headD 0) < 128 then throw .canonSize
    pure b
  | .list => throw .expectedString

/-- `Raw`: the value ahead with its header, which is written anew. -/
def raw : StreamM (List UInt8) := do
  let (k, size) ← nextKind
  match k with
  | .byte =>
    rearm
    pure [(← get).byteval]
  | .string => (puthead 0x80 0xB7 size ++ ·) <$> readFull size
  | .list => (puthead 0xC0 0xF7 size ++ ·) <$> readFull size

/-- `uint`: an integer of at most `maxbits` bits, with no leading zero byte. -/
def uint (maxbits : Nat) : StreamM Nat := do
  let (k, size) ← nextKind
  match k with
  | .byte =>
    let s ← get
    if s.byteval = 0 then throw .canonInt
    rearm
    pure s.byteval.toNat
  | .string =>
    if maxbits / 8 < size then throw .uintOverflow
    match ← attempt (readUint size) with
    -- not a size being read here
    | .error .canonSize => throw .canonInt
    | .error err => throw err
    | .ok v => if 0 < size ∧ v < 128 then throw .canonSize else pure v
  | .list => throw .expectedString

/-- `Bool`. -/
def bool : StreamM Bool := do
  let num ← uint 8
  match num with
  | 0 => pure false
  | 1 => pure true
  | num => throw (.invalidBoolean num)

/-- `List`: enters the list ahead and gives its size. -/
def list : StreamM Nat := do
  let (k, size) ← nextKind
  if k ≠ .list then throw .expectedList
  modify fun s => { s with stack := ⟨0, size⟩ :: s.stack, kind := none, size := 0 }
  pure size

/-- `ListEnd`: leaves the innermost list, which must have been read to its end. -/
def listEnd : StreamM Unit := do
  let s ← get
  match s.stack with
  | [] => throw .notInList
  | tos :: rest =>
    if tos.pos ≠ tos.size then throw .notAtEOL
    let rest := match rest with
      | parent :: up => { parent with pos := parent.pos + tos.size } :: up
      | [] => []
    set { s with stack := rest, kind := none, size := 0 }

end Stream

/-- `wrapStreamError`: the stream errors a decoder reports with the type it decodes. -/
def wrapStreamError (err : Error) (typ : Ty) : Error :=
  match err with
  | .canonInt => .decode "non-canonical integer (leading zero bytes)" typ []
  | .canonSize => .decode "non-canonical size information" typ []
  | .expectedList => .decode "expected input list" typ []
  | .expectedString => .decode "expected input string or byte" typ []
  | .uintOverflow => .decode "input string too long" typ []
  | .notAtEOL => .decode "input list has too many elements" typ []
  | err => err

/-- `addErrorContext`. -/
def addErrorContext (err : Error) (ctx : Context) : Error :=
  match err with
  | .decode msg typ ctxs => .decode msg typ (ctxs ++ [ctx])
  | err => err

/-- A stream method whose error is reported through `wrapStreamError`. -/
def wrapping {α : Type} (typ : Ty) (x : StreamM α) : StreamM α :=
  tryCatch x fun err => throw (wrapStreamError err typ)

/-- `decodeBigInt` into a `*big.Int`: no leading zero byte. -/
def decodeBigInt (typ : Ty) : StreamM Int := do
  let b ← wrapping typ Stream.bytes
  if b.head? = some 0 then throw (wrapStreamError .canonInt typ)
  pure (BigEndian.ofBytes b)

/-- `decodeByteArray` into a `[vlen]byte`; a single byte is read through `s.Uint()`. -/
def decodeByteArray (typ : Ty) (vlen : Nat) : StreamM Value := do
  let (k, size) ← Stream.nextKind
  match k with
  | .byte =>
    if vlen = 0 then throw (.decode "input string too long" typ [])
    if 1 < vlen then throw (.decode "input string too short" typ [])
    let bv ← attempt (Stream.uint 64)
    pure (.bytes [UInt8.ofNat (bv.toOption.getD 0)])
  | .string =>
    if vlen < size then throw (.decode "input string too long" typ [])
    if size < vlen then throw (.decode "input string too short" typ [])
    let slice ← Stream.readFull vlen
    -- a single byte below `0x80` should have stood alone
    if size = 1 ∧ slice.headD 0 < 128 then throw (wrapStreamError .canonSize typ)
    pure (.bytes slice)
  | .list => throw (wrapStreamError .expectedString typ)

/-- The loop of `decodeSliceElems` from index `i`, with fuel. -/
def sliceElems (elemdec : StreamM Value) : Nat → Nat → StreamM (List Value)
  -- the source loops forever on an element that consumes nothing (`[1]byte` from `0x00`);
  -- every other element takes a header, so the bytes left in the list bound the turns
  | 0, _ => throw .noProgress
  | fuel + 1, i => do
    match ← attempt elemdec with
    | .error .eol => pure []
    | .error err => throw (addErrorContext err (.index i))
    | .ok v => (v :: ·) <$> sliceElems elemdec fuel (i + 1)

/-- `decodeSliceElems`: elements until the end of the innermost list. -/
def decodeSliceElems (elemdec : StreamM Value) : StreamM (List Value) := do
  let fuel := match (← get).stack with
    | tos :: _ => tos.size - tos.pos + 2
    | [] => 2
  sliceElems elemdec fuel 0

/-- `decodeListSlice`. -/
def decodeListSlice (typ : Ty) (elemdec : StreamM Value) : StreamM Value := do
  let size ← wrapping typ Stream.list
  if size = 0 then
    Stream.listEnd
    pure (.list [])
  else
    let vs ← decodeSliceElems elemdec
    Stream.listEnd
    pure (.list vs)

/-- The loop of `decodeListArray` over at most `n` elements from index `i`. -/
def arrayElems (elemdec : StreamM Value) : Nat → Nat → StreamM (List Value)
  | 0, _ => pure []
  | n + 1, i => do
    match ← attempt elemdec with
    | .error .eol => pure []
    | .error err => throw (addErrorContext err (.index i))
    | .ok v => (v :: ·) <$> arrayElems elemdec n (i + 1)

/-- `decodeListArray`: exactly `vlen` elements. -/
def decodeListArray (typ : Ty) (vlen : Nat) (elemdec : StreamM Value) : StreamM Value := do
  let _ ← wrapping typ Stream.list
  let vs ← arrayElems elemdec vlen 0
  if vs.length < vlen then throw (.decode "input list has too few elements" typ [])
  wrapping typ Stream.listEnd
  pure (.list vs)

/-- `makeOptionalPtrDecoder`: an empty string or an empty list is a nil pointer. -/
def decodeOptionalPtr (elemdec : StreamM Value) : StreamM Value := do
  match ← attempt Stream.nextKind with
  | .error err =>
    Stream.rearm
    throw err
  | .ok (k, size) =>
    if size = 0 ∧ k ≠ .byte then
      Stream.rearm
      pure .nil
    else .ptr <$> elemdec

mutual

/-- The decoder `makeDecoder` builds for a type under a field's tags. -/
def decoder : Ty → Tags → StreamM Value
  | .rawValue, _ => .bytes <$> Stream.raw
  | .ptr .bigInt, _ => (fun n => .ptr (.bigInt n)) <$> decodeBigInt (.ptr .bigInt)
  | .bigInt, _ => .bigInt <$> decodeBigInt (.ptr .bigInt)
  | .uint bits, _ => .uint <$> wrapping (.uint bits) (Stream.uint bits)
  | .bool, _ => .bool <$> wrapping .bool Stream.bool
  | .string, _ => .bytes <$> wrapping .string Stream.bytes
  | .slice elem, ts =>
    -- `decodeByteSlice`, or the decoders of `makeListDecoder`
    if elem.isByte then .bytes <$> wrapping (.slice elem) Stream.bytes
    else if ts.tail then .list <$> decodeSliceElems (decoder elem {})
    else decodeListSlice (.slice elem) (decoder elem {})
  | .array len elem, _ =>
    if elem.isByte then decodeByteArray (.array len elem) len
    else decodeListArray (.array len elem) len (decoder elem {})
  | .struct fields, _ => do
    -- `makeStructDecoder`
    let _ ← wrapping (.struct fields) Stream.list
    let vs ← decodeFields (.struct fields) fields.length fields 0
    wrapping (.struct fields) Stream.listEnd
    pure (.list vs)
  | .ptr elem, ts =>
    if ts.nilOK then decodeOptionalPtr (decoder elem {})
    else .ptr <$> decoder elem {}

/-- The fields of a struct from index `index` on. -/
def decodeFields (typ : Ty) (count : Nat) : List (Field Ty) → Nat → StreamM (List Value)
  | [], _ => pure []
  | field :: rest, index => do
    let tags ← if field.exported then
        match parseStructTag typ (index = count - 1) field with
        | .error err => throw err
        | .ok tags => pure tags
      else pure { ignored := true }
    if tags.ignored then
      (field.type.zero :: ·) <$> decodeFields typ count rest (index + 1)
    else
      match ← attempt (decoder field.type tags) with
      | .error .eol => throw (.decode "too few elements" typ [])
      | .error err => throw (addErrorContext err (.field field.name))
      | .ok v => (v :: ·) <$> decodeFields typ count rest (index + 1)

end

/-- `Stream.Decode` into a fresh value of `ty`. -/
def Stream.decode (ty : Ty) : StreamM Value := do
  match ty.typeInfo with
  | .error err => throw err
  | .ok () =>
    match ← attempt (decoder ty {}) with
    | .error (.decode msg typ (ctx :: ctxs)) =>
      throw (.decode msg typ ((ctx :: ctxs) ++ [.target ty]))
    | .error err => throw err
    | .ok v => pure v

/-- `DecodeBytes`: exactly one value and no trailing data. -/
def decodeBytes (ty : Ty) (b : List UInt8) : Except Error Value :=
  match StateExcept.run (Stream.decode ty) (newStream b) with
  | (.error err, _) => .error err
  | (.ok v, s) => if s.input ≠ [] then .error .moreThanOneValue else .ok v

end Tangerine.Rlp
