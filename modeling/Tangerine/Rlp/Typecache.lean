import Mathlib

/-! The Go types the `rlp` package serialises, their values and errors, and `typecache.go`. -/

namespace Tangerine.Rlp

/-- A struct field: its name, the value of its `rlp` tag, and its type. -/
structure Field (α : Type) where
  name : String
  tag : String
  type : α

/-- The Go types the package handles; `ptr bigInt` is `*big.Int`. -/
inductive Ty where
  | uint (bits : Nat)
  | bool
  | string
  | bigInt
  | rawValue
  | slice (elem : Ty)
  | array (len : Nat) (elem : Ty)
  | struct (fields : List (Field Ty))
  | ptr (elem : Ty)

mutual

/-- Equality of types is decided constructor by constructor. -/
def Ty.decEq (a b : Ty) : Decidable (a = b) :=
  if sameConstructor : a.ctorIdx = b.ctorIdx then
    match a, b, sameConstructor with
    | .uint m, .uint n, _ => decidable_of_iff (m = n) (by simp)
    | .bool, .bool, _ => isTrue rfl
    | .string, .string, _ => isTrue rfl
    | .bigInt, .bigInt, _ => isTrue rfl
    | .rawValue, .rawValue, _ => isTrue rfl
    | .slice x, .slice y, _ =>
      match Ty.decEq x y with
      | isTrue same => isTrue (same ▸ rfl)
      | isFalse differ => isFalse (by simpa using differ)
    | .array m x, .array n y, _ =>
      match (inferInstance : Decidable (m = n)), Ty.decEq x y with
      | isTrue sameLen, isTrue same => isTrue (sameLen ▸ same ▸ rfl)
      | isFalse differ, _ => isFalse (by simp [differ])
      | _, isFalse differ => isFalse (by simp [differ])
    | .struct xs, .struct ys, _ =>
      match Ty.decEqFields xs ys with
      | isTrue same => isTrue (same ▸ rfl)
      | isFalse differ => isFalse (by simpa using differ)
    | .ptr x, .ptr y, _ =>
      match Ty.decEq x y with
      | isTrue same => isTrue (same ▸ rfl)
      | isFalse differ => isFalse (by simpa using differ)
  else isFalse fun same => sameConstructor (same ▸ rfl)

/-- Equality of field lists is decided field by field. -/
def Ty.decEqFields : (xs ys : List (Field Ty)) → Decidable (xs = ys)
  | [], [] => isTrue rfl
  | [], _ :: _ => isFalse (by simp)
  | _ :: _, [] => isFalse (by simp)
  | ⟨name, tag, x⟩ :: xs, ⟨name', tag', y⟩ :: ys =>
    match (inferInstance : Decidable (name = name')), (inferInstance : Decidable (tag = tag')),
      Ty.decEq x y, Ty.decEqFields xs ys with
    | isTrue sameName, isTrue sameTag, isTrue same, isTrue sameRest =>
      isTrue (sameName ▸ sameTag ▸ same ▸ sameRest ▸ rfl)
    | isFalse differ, _, _, _ => isFalse (by simp [differ])
    | _, isFalse differ, _, _ => isFalse (by simp [differ])
    | _, _, isFalse differ, _ => isFalse (by simp [differ])
    | _, _, _, isFalse differ => isFalse (by simp [differ])

end

instance : DecidableEq Ty := Ty.decEq

namespace Ty

/-- `isByte`: the element kind of the byte slices and byte arrays. -/
def isByte : Ty → Bool
  | .uint 8 => true
  | _ => false

/-- The types whose `Kind()` is `reflect.Slice`; `RawValue` is a `[]byte`. -/
def isSliceKind : Ty → Bool
  | .slice _ | .rawValue => true
  | _ => false

/-- The types whose `Kind()` is `reflect.Struct`; `big.Int` is a struct. -/
def isStructKind : Ty → Bool
  | .struct _ | .bigInt => true
  | _ => false

/-- The types whose `Kind()` is `reflect.Array`. -/
def isArrayKind : Ty → Bool
  | .array _ _ => true
  | _ => false

/-- The element of an array type. -/
def arrayElem : Ty → Option Ty
  | .array _ elem => some elem
  | _ => none

end Ty

/-- A Go value as the package reads it through `reflect`. -/
inductive Value where
  | uint (n : Nat)
  | bool (b : Bool)
  | bytes (b : List UInt8)
  | bigInt (n : Int)
  | nil
  | ptr (v : Value)
  | list (vs : List Value)

mutual

/-- Equality of values is decided constructor by constructor. -/
def Value.decEq (a b : Value) : Decidable (a = b) :=
  if sameConstructor : a.ctorIdx = b.ctorIdx then
    match a, b, sameConstructor with
    | .uint m, .uint n, _ => decidable_of_iff (m = n) (by simp)
    | .bool x, .bool y, _ => decidable_of_iff (x = y) (by simp)
    | .bytes x, .bytes y, _ => decidable_of_iff (x = y) (by simp)
    | .bigInt x, .bigInt y, _ => decidable_of_iff (x = y) (by simp)
    | .nil, .nil, _ => isTrue rfl
    | .ptr x, .ptr y, _ =>
      match Value.decEq x y with
      | isTrue same => isTrue (same ▸ rfl)
      | isFalse differ => isFalse (by simpa using differ)
    | .list xs, .list ys, _ =>
      match Value.decEqList xs ys with
      | isTrue same => isTrue (same ▸ rfl)
      | isFalse differ => isFalse (by simpa using differ)
  else isFalse fun same => sameConstructor (same ▸ rfl)

/-- Equality of value lists is decided element by element. -/
def Value.decEqList : (xs ys : List Value) → Decidable (xs = ys)
  | [], [] => isTrue rfl
  | [], _ :: _ => isFalse (by simp)
  | _ :: _, [] => isFalse (by simp)
  | x :: xs, y :: ys =>
    match Value.decEq x y, Value.decEqList xs ys with
    | isTrue head, isTrue tail => isTrue (head ▸ tail ▸ rfl)
    | isFalse head, _ => isFalse (by simp [head])
    | _, isFalse tail => isFalse (by simp [tail])

end

instance : DecidableEq Value := Value.decEq

namespace Value

/-- `val.Uint()`. -/
def toUint : Value → Nat
  | .uint n => n
  | _ => 0

/-- `val.Bool()`. -/
def toBool : Value → Bool
  | .bool b => b
  | _ => false

/-- `val.Bytes()`, `val.String()`. -/
def toBytes : Value → List UInt8
  | .bytes b => b
  | _ => []

/-- The `big.Int` a value holds. -/
def toBigInt : Value → Int
  | .bigInt n => n
  | _ => 0

/-- `val.Index(i)` for `i < val.Len()`, `val.Field(i)`. -/
def elems : Value → List Value
  | .list vs => vs
  | _ => []

/-- `val.Elem()` of a pointer, `none` when `val.IsNil()`. -/
def deref : Value → Option Value
  | .ptr v => some v
  | _ => none

end Value

/-- What a field's `rlp` tag asks for (`tags`). -/
structure Tags where
  nilOK : Bool := false
  tail : Bool := false
  ignored : Bool := false

/-- One entry of `decodeError.ctx`. -/
inductive Context where
  | field (name : String)
  | index (i : Nat)
  | target (typ : Ty)
deriving DecidableEq

/-- The errors of the package and the reader errors it passes on. -/
inductive Error where
  | eol
  | eof
  | unexpectedEOF
  | expectedString
  | expectedList
  | canonInt
  | canonSize
  | elemTooLarge
  | valueTooLarge
  | moreThanOneValue
  | notInList
  | notAtEOL
  | uintOverflow
  | invalidBoolean (num : Nat)
  | decode (msg : String) (typ : Ty) (ctx : List Context)
  | negativeBigInt
  | tailNotLast (typ : Ty) (field : String)
  | tailNotSlice (typ : Ty) (field : String)
  | unknownTag (tag : String) (typ : Ty) (field : String)
  | noProgress
deriving DecidableEq

/-- `f.PkgPath == ""`: an exported field, whose name starts with a capital. -/
def Field.exported {α : Type} (field : Field α) : Bool :=
  field.name.front.isUpper

/-- `strings.TrimSpace` of a tag item, for the ASCII white space. -/
def trimSpace (item : List Char) : String :=
  String.ofList ((item.dropWhile Char.isWhitespace).reverse.dropWhile Char.isWhitespace).reverse

/-- One comma-separated item of a field's tag, added to the tags read so far. -/
def parseTagItem (typ : Ty) (last : Bool) (field : Field Ty) (ts : Tags) (item : List Char) :
    Except Error Tags :=
  match trimSpace item with
  | "" => .ok ts
  | "-" => .ok { ts with ignored := true }
  | "nil" => .ok { ts with nilOK := true }
  | "tail" =>
    if !last then .error (.tailNotLast typ field.name)
    else if !field.type.isSliceKind then .error (.tailNotSlice typ field.name)
    else .ok { ts with tail := true }
  | other => .error (.unknownTag other typ field.name)

/-- `parseStructTag` for a field of the struct type `typ`. -/
def parseStructTag (typ : Ty) (last : Bool) (field : Field Ty) : Except Error Tags :=
  (field.tag.toList.splitOn ',').foldlM (parseTagItem typ last field) {}

mutual

/-- The zero value of a type, which a fresh destination holds and a nil pointer stands for. -/
def Ty.zero : Ty → Value
  | .uint _ => .uint 0
  | .bool => .bool false
  | .string => .bytes []
  | .bigInt => .bigInt 0
  | .rawValue => .bytes []
  | .slice elem => if elem.isByte then .bytes [] else .list []
  | .array len elem =>
    if elem.isByte then .bytes (List.replicate len 0) else .list (List.replicate len elem.zero)
  | .struct fields => .list (fieldZeros fields)
  | .ptr _ => .nil

/-- The zero values of a struct's fields. -/
def fieldZeros : List (Field Ty) → List Value
  | [] => []
  | field :: rest => field.type.zero :: fieldZeros rest

end

mutual

/-- `cachedTypeInfo`: it fails on a bad struct tag anywhere inside the type. -/
def Ty.typeInfo : Ty → Except Error Unit
  | .slice elem => if elem.isByte then .ok () else elem.typeInfo
  | .array _ elem => if elem.isByte then .ok () else elem.typeInfo
  | .struct fields => fieldsInfo (.struct fields) fields fields.length 0
  | .ptr .bigInt => .ok ()
  | .ptr elem => elem.typeInfo
  | _ => .ok ()

/-- `structFields` over the fields from index `index` on. -/
def fieldsInfo (typ : Ty) : List (Field Ty) → Nat → Nat → Except Error Unit
  | [], _, _ => .ok ()
  | field :: rest, count, index =>
    if field.exported then
      match parseStructTag typ (index = count - 1) field with
      | .error err => .error err
      | .ok tags =>
        if tags.ignored then fieldsInfo typ rest count (index + 1)
        else match field.type.typeInfo with
          | .error err => .error err
          | .ok () => fieldsInfo typ rest count (index + 1)
    else fieldsInfo typ rest count (index + 1)

end

end Tangerine.Rlp
