import Tangerine.Library.Transition
import Tangerine.Proof.Rlp.Stream

/-! A `[1]byte` decoded from the byte `0x00` inside a list leaves the byte's header cached. -/

namespace Tangerine.Proof.SingleByte

open Tangerine.Rlp Tangerine.Library Tangerine.Library.StateExcept Tangerine.Proof.RlpStream

variable {s : Stream} {typ : Ty}

/-- The stream holds the header of the byte `0x00` as the kind ahead, with no error. -/
def HoldsZeroByte (s : Stream) : Prop :=
  s.kind = some .byte ∧ s.kinderr = none ∧ s.byteval = 0

/-- The stream once the header byte `0x00` of a `[1]byte` is read from it. -/
def afterZeroByte (s : Stream) (rest : List UInt8) : Stream :=
  { charge s 1 with input := rest, kind := some .byte, size := 0, byteval := 0, kinderr := none }

@[simp] theorem afterZeroByte_input (s : Stream) (rest : List UInt8) :
    (afterZeroByte s rest).input = rest := rfl

theorem afterZeroByte_holds (s : Stream) (rest : List UInt8) :
    HoldsZeroByte (afterZeroByte s rest) := ⟨rfl, rfl, rfl⟩

/-- `s.Uint()` refuses a held zero byte before it re-arms `Kind`. -/
theorem uint_held (held : HoldsZeroByte s) (maxbits : Nat) :
    run (Stream.uint maxbits) s = (.error .canonInt, s) := by
  obtain ⟨cached, clean, zero⟩ := held
  simp [Stream.uint, run_bind, nextKind_cached cached clean, zero]

/-- A `[1]byte` decoded from a held zero byte is zero, and the stream still holds the byte. -/
theorem decodeByteArray_held (held : HoldsZeroByte s) (typ : Ty) :
    run (decodeByteArray typ 1) s = (.ok (.bytes [0]), s) := by
  obtain ⟨cached, clean, zero⟩ := held
  simp [decodeByteArray, run_bind, run_map, nextKind_cached cached clean, attempt_spec,
    uint_held ⟨cached, clean, zero⟩]
  rfl

/-- A `[1]byte` read from the header byte `0x00` inside a list leaves the byte held. -/
theorem decodeByteArray_zero {rest : List UInt8} (fresh : s.kind = none)
    (unread : ∀ tos up, s.stack = tos :: up → tos.pos ≠ tos.size) (fits : Fits s 1)
    (input : s.input = 0 :: rest) (typ : Ty) :
    run (decodeByteArray typ 1) s = (.ok (.bytes [0]), afterZeroByte s rest) := by
  have read := readKind_single (s := { s with kinderr := none }) fits input (by decide)
  have ahead : run Stream.nextKind s = (.ok (.byte, 0), afterZeroByte s rest) :=
    nextKind_fresh fresh unread read ⟨fun _ _ _ => Nat.zero_le _, fun _ => Nat.zero_le _⟩
  obtain ⟨cached, clean, -⟩ := afterZeroByte_holds s rest
  -- from here on both runs continue from a `Byte` header of size zero
  have again : run Stream.nextKind (afterZeroByte s rest) = (.ok (.byte, 0), afterZeroByte s rest) :=
    nextKind_cached cached clean
  calc run (decodeByteArray typ 1) s = run (decodeByteArray typ 1) (afterZeroByte s rest) := by
        unfold decodeByteArray
        rw [run_bind_ok ahead, run_bind_ok again]
    _ = _ := decodeByteArray_held (afterZeroByte_holds s rest) typ

/-- Every element of an array decoded from a held zero byte is a zero `[1]byte`. -/
theorem arrayElems_held (held : HoldsZeroByte s) (typ : Ty) (n i : Nat) :
    run (arrayElems (decodeByteArray typ 1) n i) s = (.ok (List.replicate n (.bytes [0])), s) := by
  induction n generalizing i with
  | zero => rfl
  | succ n inductionHypothesis =>
      simp [arrayElems, run_bind, run_map, attempt_spec, decodeByteArray_held held,
        inductionHypothesis, List.replicate_succ]

/-- The first element of the array reads the byte `0x00`; the others read the header held. -/
theorem arrayElems_zero {rest : List UInt8} (fresh : s.kind = none)
    (unread : ∀ tos up, s.stack = tos :: up → tos.pos ≠ tos.size) (fits : Fits s 1)
    (input : s.input = 0 :: rest) (typ : Ty) (n i : Nat) :
    run (arrayElems (decodeByteArray typ 1) (n + 1) i) s =
      (.ok (List.replicate (n + 1) (.bytes [0])), afterZeroByte s rest) := by
  simp [arrayElems, run_bind, run_map, attempt_spec, decodeByteArray_zero fresh unread fits input,
    arrayElems_held (afterZeroByte_holds s rest), List.replicate_succ]

/-- The type `[n][1]byte`. -/
def singleBytes (n : Nat) : Ty := .array n (.array 1 (.uint 8))

/-- `n` zero `[1]byte`s. -/
def zeroSingleBytes (n : Nat) : Value := .list (List.replicate n (.bytes [0]))

theorem typeInfo_singleBytes (n : Nat) : (singleBytes n).typeInfo = .ok () := rfl

/-- A `[n][1]byte` is decoded by `decodeListArray` over `decodeByteArray`. -/
theorem decoder_singleBytes (n : Nat) (ts : Tags) :
    decoder (singleBytes n) ts =
      decodeListArray (singleBytes n) n (decodeByteArray (.array 1 (.uint 8)) 1) := by
  simp [singleBytes, decoder, Ty.isByte]

/-- The stream inside a list of `size` bytes whose first byte is `0x00`, at the top level. -/
def inList (size : Nat) (rest : List UInt8) : Stream :=
  { input := 0 :: rest, remaining := rest.length + 1, limited := true, kind := none, size := 0,
    byteval := 0, kinderr := none, stack := [⟨0, size⟩] }

/-- Inside a list starting with `0x00`, any positive number of `[1]byte`s decode to zero. -/
theorem arrayElems_inList {size : Nat} (positive : 0 < size) (rest : List UInt8) (n : Nat) :
    run (arrayElems (decodeByteArray (.array 1 (.uint 8)) 1) (n + 1) 0) (inList size rest) =
      (.ok (List.replicate (n + 1) (.bytes [0])), afterZeroByte (inList size rest) rest) :=
  arrayElems_zero rfl (fun _ _ on => by cases on; simp; omega)
    ⟨fun _ _ on => by cases on; simp; omega, fun _ => by simp [inList]⟩ rfl _ n 0

/-- Zero `[1]byte`s are written one byte each: the byte `0x00` stands alone. -/
theorem writeElems_zeroSingleBytes (k : Nat) (w : EncBuf) :
    (List.replicate k (Value.bytes [0])).foldlM (fun w x => writer (.array 1 (.uint 8)) {} x w) w =
      .ok (w.append (List.replicate k 0)) := by
  induction k generalizing w with
  | zero =>
      simp only [List.replicate_zero, List.foldlM_nil, EncBuf.append, List.append_nil]
      rfl
  | succ k inductionHypothesis =>
      have single : writer (.array 1 (.uint 8)) {} (.bytes [0]) w = .ok (w.append [0]) := by
        simp [writer, Ty.isByte, EncBuf.encodeString, Value.toBytes]
      rw [List.replicate_succ, List.foldlM_cons, single, except_bind_ok, inductionHypothesis]
      simp [EncBuf.append, List.replicate_succ]

/-- `n` zero `[1]byte`s, `n < 56`, encode as the list of `n` zero bytes. -/
theorem encodeToBytes_zeroSingleBytes {n : Nat} (short : n < 56) :
    encodeToBytes (singleBytes n) (zeroSingleBytes n) =
      .ok ((0xC0 + UInt8.ofNat n) :: List.replicate n 0) := by
  rw [encodeToBytes, typeInfo_singleBytes, except_bind_ok, singleBytes, zeroSingleBytes, writer]
  simp only [Ty.isByte, Bool.false_eq_true, if_false, Value.elems, EncBuf.list,
    writeElems_zeroSingleBytes]
  simp [Except.map, EncBuf.append, EncBuf.listEnd, EncBuf.size, EncBuf.toBytes, EncBuf.splice,
    ListHead.encode, puthead, short]

/-- The list holding the one byte `0x00` decodes into `n` zero `[1]byte`s. -/
theorem decodeBytes_singleBytes_one {n : Nat} (positive : 0 < n) :
    decodeBytes (singleBytes n) [0xC1, 0x00] = .ok (zeroSingleBytes n) := by
  obtain ⟨m, rfl⟩ : ∃ m, n = m + 1 := ⟨n - 1, by omega⟩
  have header : (0xC0 + UInt8.ofNat 1 : UInt8) = 0xC1 := by decide
  have entered : run Stream.list (newStream [0xC1, 0x00]) = (.ok 1, inList 1 []) := by
    rw [← header]
    exact list_topLevel (by decide) (by decide)
  have closed := listEnd_spec (s := afterZeroByte (inList 1 []) []) rfl rfl
  simp [decodeBytes, Stream.decode, typeInfo_singleBytes, decoder_singleBytes, decodeListArray,
    run_bind, run_map, attempt_spec, wrapping_ok entered, arrayElems_inList one_pos [] m,
    wrapping_ok closed, zeroSingleBytes]

/-- A list of `n` zero bytes, `2 ≤ n < 56`, is rejected as a `[n][1]byte`. -/
theorem decodeBytes_singleBytes_zeros {n : Nat} (several : 2 ≤ n) (short : n < 56) :
    decodeBytes (singleBytes n) ((0xC0 + UInt8.ofNat n) :: List.replicate n 0) =
      .error (.decode "input list has too many elements" (singleBytes n) []) := by
  obtain ⟨m, rfl⟩ : ∃ m, n = m + 1 := ⟨n - 1, by omega⟩
  have entered : run Stream.list (newStream ((0xC0 + UInt8.ofNat (m + 1)) :: List.replicate (m + 1) 0)) =
      (.ok (m + 1), inList (m + 1) (List.replicate m 0)) := by
    rw [list_topLevel short (by simp)]
    simp [inList, List.replicate_succ]
  generalize (0xC0 + UInt8.ofNat (m + 1) : UInt8) = header at entered ⊢
  -- one byte of the `m + 1` was read
  have unread := listEnd_notAtEOL (s := afterZeroByte (inList (m + 1) (List.replicate m 0))
    (List.replicate m 0)) rfl (by simp; omega)
  simp [decodeBytes, Stream.decode, typeInfo_singleBytes, decoder_singleBytes, decodeListArray,
    run_bind, run_map, attempt_spec, wrapping_ok entered, arrayElems_inList (Nat.succ_pos m) _ m,
    wrapping_error unread, wrapStreamError]

/-- Two zero `[1]byte`s encode as `0xC2 0x00 0x00`, and `DecodeBytes` rejects that encoding. -/
theorem zeroSingleBytes_reencoding_rejected :
    encodeToBytes (singleBytes 2) (zeroSingleBytes 2) = .ok [0xC2, 0x00, 0x00] ∧
      decodeBytes (singleBytes 2) [0xC2, 0x00, 0x00] =
        .error (.decode "input list has too many elements" (singleBytes 2) []) := by
  have header : (0xC0 + UInt8.ofNat 2 : UInt8) = 0xC2 := by decide
  have encoded := encodeToBytes_zeroSingleBytes (n := 2) (by decide)
  have rejected := decodeBytes_singleBytes_zeros (n := 2) (by decide) (by decide)
  rw [header] at encoded rejected
  exact ⟨encoded, rejected⟩

/-- `0xC1 0x00` decodes as two zero `[1]byte`s, whose encoding is `0xC2 0x00 0x00`. -/
theorem singleZeroByte_accepted_noncanonical :
    decodeBytes (singleBytes 2) [0xC1, 0x00] = .ok (zeroSingleBytes 2) ∧
      encodeToBytes (singleBytes 2) (zeroSingleBytes 2) = .ok [0xC2, 0x00, 0x00] := by
  have header : (0xC0 + UInt8.ofNat 2 : UInt8) = 0xC2 := by decide
  have encoded := encodeToBytes_zeroSingleBytes (n := 2) (by decide)
  rw [header] at encoded
  exact ⟨decodeBytes_singleBytes_one (by decide), encoded⟩

end Tangerine.Proof.SingleByte
