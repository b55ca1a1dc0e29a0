import Tangerine.Rlp.Raw

/-! The raw splitting of `rlp/raw.go` on what the encoder writes. -/

namespace Tangerine.Proof.RlpSplit

open Tangerine.Rlp Tangerine.Library

section Putint

theorem ofBytes_putint (size : Nat) : BigEndian.ofBytes (putint size) = size := by
  unfold putint
  split
  · simp [BigEndian.ofBytes, Nat.mod_eq_of_lt ‹size < 256›]
  · exact BigEndian.ofBytes_toBytes size

theorem headD_putint_ne_zero {size : Nat} (positive : 0 < size) : (putint size).headD 0 ≠ 0 := by
  unfold putint
  split
  · intro zero
    have := congrArg UInt8.toNat zero
    simp [Nat.mod_eq_of_lt ‹size < 256›] at this
    omega
  · have leading := BigEndian.head_toBytes_ne_zero size
    cases bytes : BigEndian.toBytes size with
    | nil =>
      have := BigEndian.ofBytes_toBytes size
      rw [bytes] at this
      simp [BigEndian.ofBytes] at this
      omega
    | cons byte rest =>
      rw [bytes] at leading
      simpa using leading

theorem one_le_intsize (size : Nat) : 1 ≤ intsize size := by
  unfold intsize putint
  split
  · simp
  · rw [BigEndian.toBytes_of_pos (by omega)]
    simp

theorem intsize_le {size : Nat} (bound : size < 2 ^ 64) : intsize size ≤ 8 := by
  unfold intsize putint
  split
  · simp
  · exact BigEndian.length_toBytes_le (by simpa using bound)

/-- The size bytes of a long header are read back as the size. -/
theorem readSize_putint {size : Nat} (large : 56 ≤ size) (rest : List UInt8) :
    readSize (putint size ++ rest) (intsize size) = .ok size := by
  have leading : (putint size ++ rest).headD 0 ≠ 0 := by
    have := headD_putint_ne_zero (show 0 < size by omega)
    cases bytes : putint size with
    | nil => simp [bytes] at this
    | cons byte tail => simpa [bytes] using this
  unfold readSize
  rw [if_neg (by simp [intsize]), intsize, List.take_left, ofBytes_putint,
    if_neg (not_or.mpr ⟨by omega, leading⟩)]

end Putint

section Header

/-- A tag at or above a list's is above every string tag. -/
theorem not_lt_of_string {b : UInt8} (notString : ¬ b < 0xC0) (bound : UInt8)
    (below : bound ≤ 0xC0) : ¬ b < bound := by
  simp only [UInt8.lt_iff_toNat_lt, UInt8.le_iff_toNat_le] at *
  omega

/-- A short string header holds the size in its tag. -/
theorem kindOfHeader_short_string {size : Nat} (small : size < 56) {rest : List UInt8}
    (canonical : ¬ (size = 1 ∧ rest ≠ [] ∧ rest.headD 0 < 128)) :
    kindOfHeader (0x80 + UInt8.ofNat size) rest = .ok (.string, 1, size) := by
  have notByte : ¬ (0x80 : UInt8) + UInt8.ofNat size < 0x80 := by
    simp [UInt8.lt_iff_toNat_lt, UInt8.toNat_add]
    omega
  have shortTag : (0x80 : UInt8) + UInt8.ofNat size < 0xB8 := by
    simp [UInt8.lt_iff_toNat_lt, UInt8.toNat_add]
    omega
  have sized : ((0x80 : UInt8) + UInt8.ofNat size - 0x80).toNat = size := by
    simp
    omega
  unfold kindOfHeader
  simp only [if_neg notByte, if_pos shortTag, sized, if_neg canonical]

/-- A long string header holds the number of the size's bytes in its tag, then the size. -/
theorem kindOfHeader_long_string {size : Nat} (large : 56 ≤ size) (bound : size < 2 ^ 64)
    (rest : List UInt8) :
    kindOfHeader (0xB7 + UInt8.ofNat (intsize size)) (putint size ++ rest) =
      .ok (.string, intsize size + 1, size) := by
  have least := one_le_intsize size
  have most := intsize_le bound
  have notByte : ¬ (0xB7 : UInt8) + UInt8.ofNat (intsize size) < 0x80 := by
    simp [UInt8.lt_iff_toNat_lt, UInt8.toNat_add]
    omega
  have notShort : ¬ (0xB7 : UInt8) + UInt8.ofNat (intsize size) < 0xB8 := by
    simp [UInt8.lt_iff_toNat_lt, UInt8.toNat_add]
    omega
  have longTag : (0xB7 : UInt8) + UInt8.ofNat (intsize size) < 0xC0 := by
    simp [UInt8.lt_iff_toNat_lt, UInt8.toNat_add]
    omega
  have sized : ((0xB7 : UInt8) + UInt8.ofNat (intsize size) - 0xB7).toNat = intsize size := by
    simp
    omega
  unfold kindOfHeader
  simp only [if_neg notByte, if_neg notShort, if_pos longTag, sized, readSize_putint large]
  rfl

/-- A short list header holds the size in its tag. -/
theorem kindOfHeader_short_list {size : Nat} (small : size < 56) (rest : List UInt8) :
    kindOfHeader (0xC0 + UInt8.ofNat size) rest = .ok (.list, 1, size) := by
  have notString : ¬ (0xC0 : UInt8) + UInt8.ofNat size < 0xC0 := by
    simp [UInt8.lt_iff_toNat_lt, UInt8.toNat_add]
    omega
  have shortTag : (0xC0 : UInt8) + UInt8.ofNat size < 0xF8 := by
    simp [UInt8.lt_iff_toNat_lt, UInt8.toNat_add]
    omega
  have sized : ((0xC0 : UInt8) + UInt8.ofNat size - 0xC0).toNat = size := by
    simp
    omega
  unfold kindOfHeader
  simp only [if_neg (not_lt_of_string notString 0x80 (by decide)),
    if_neg (not_lt_of_string notString 0xB8 (by decide)), if_neg notString, if_pos shortTag, sized]

/-- A long list header holds the number of the size's bytes in its tag, then the size. -/
theorem kindOfHeader_long_list {size : Nat} (large : 56 ≤ size) (bound : size < 2 ^ 64)
    (rest : List UInt8) :
    kindOfHeader (0xF7 + UInt8.ofNat (intsize size)) (putint size ++ rest) =
      .ok (.list, intsize size + 1, size) := by
  have least := one_le_intsize size
  have most := intsize_le bound
  have notString : ¬ (0xF7 : UInt8) + UInt8.ofNat (intsize size) < 0xC0 := by
    simp [UInt8.lt_iff_toNat_lt, UInt8.toNat_add]
    omega
  have notShort : ¬ (0xF7 : UInt8) + UInt8.ofNat (intsize size) < 0xF8 := by
    simp [UInt8.lt_iff_toNat_lt, UInt8.toNat_add]
    omega
  have sized : ((0xF7 : UInt8) + UInt8.ofNat (intsize size) - 0xF7).toNat = intsize size := by
    simp
    omega
  unfold kindOfHeader
  simp only [if_neg (not_lt_of_string notString 0x80 (by decide)),
    if_neg (not_lt_of_string notString 0xB8 (by decide)), if_neg notString, if_neg notShort, sized,
    readSize_putint large]
  rfl

end Header

/-- The kind `readKind` gives a string's encoding: a single byte below `0x80` is a byte. -/
def stringKind (b : List UInt8) : Kind :=
  match b with
  | [byte] => if byte ≤ 0x7F then .byte else .string
  | _ => .string

theorem stringKind_ne_list (b : List UInt8) : stringKind b ≠ .list := by
  unfold stringKind
  split
  · split <;> decide
  · decide

theorem stringKind_of_length_ne_one {b : List UInt8} (notSingle : b.length ≠ 1) :
    stringKind b = .string := by
  unfold stringKind
  split
  · simp at notSingle
  · rfl

section Split

/-- `Split` takes off a value whose header reads as its size, what follows left as it is. -/
theorem split_of_header {tag : UInt8} {header content rest : List UInt8} {k : Kind}
    (read : kindOfHeader tag (header ++ content ++ rest) = .ok (k, header.length + 1, content.length)) :
    split (tag :: (header ++ content ++ rest)) = .ok (k, content, rest) := by
  have fits : ¬ content.length > (tag :: (header ++ content ++ rest)).length - (header.length + 1) := by
    simp only [List.length_cons, List.length_append]
    omega
  have dropHeader : (tag :: (header ++ content ++ rest)).drop (header.length + 1) = content ++ rest := by
    simp
  have dropValue :
      (tag :: (header ++ content ++ rest)).drop (header.length + 1 + content.length) = rest := by
    rw [Nat.add_right_comm, List.drop_succ_cons, ← List.length_append, List.drop_left]
  simp only [split, readKind, read, bind, Except.bind, if_neg fits, pure, Except.pure, dropHeader,
    dropValue, List.take_left]

/-- A single byte below `0x80` is its own value. -/
theorem split_byte {byte : UInt8} (small : byte < 0x80) (rest : List UInt8) :
    split (byte :: rest) = .ok (.byte, [byte], rest) := by
  simp [split, readKind, kindOfHeader, small, bind, Except.bind, pure, Except.pure]

/-- A string under the header `puthead` writes for it. -/
theorem split_puthead_string {b : List UInt8} (bound : b.length < 2 ^ 64)
    (notByte : ∀ byte, b = [byte] → ¬ byte ≤ 0x7F) (rest : List UInt8) :
    split (puthead 0x80 0xB7 b.length ++ b ++ rest) = .ok (.string, b, rest) := by
  unfold puthead
  split
  · rename_i small
    have canonical : ¬ (b.length = 1 ∧ b ++ rest ≠ [] ∧ (b ++ rest).headD 0 < 128) := by
      rintro ⟨single, -, below⟩
      obtain ⟨byte, rfl⟩ := List.length_eq_one_iff.mp single
      have large := notByte byte rfl
      simp only [List.cons_append, List.nil_append, List.headD_cons] at below
      simp only [UInt8.le_iff_toNat_le, UInt8.lt_iff_toNat_lt] at large below
      exact large (by simpa using Nat.le_of_lt_succ below)
    have read : kindOfHeader _ ([] ++ b ++ rest) = .ok (.string, ([] : List UInt8).length + 1, b.length) :=
      kindOfHeader_short_string small canonical
    exact split_of_header read
  · rename_i large
    have read := kindOfHeader_long_string (by omega) bound (b ++ rest)
    rw [← List.append_assoc] at read
    exact split_of_header read

/-- `Split` takes a string's encoding off the front of a buffer, and gives its content. -/
theorem split_stringEncoding {b : List UInt8} (bound : b.length < 2 ^ 64) (rest : List UInt8) :
    split (stringEncoding b ++ rest) = .ok (stringKind b, b, rest) := by
  rcases b with _ | ⟨byte, _ | ⟨second, tail⟩⟩
  · exact split_puthead_string bound (fun _ same => by simp at same) rest
  · -- a single byte is its own encoding when below `0x80`
    by_cases small : byte ≤ 0x7F
    · have below : byte < 0x80 := by
        simp only [UInt8.le_iff_toNat_le, UInt8.lt_iff_toNat_lt] at small ⊢
        simpa using Nat.lt_succ_of_le small
      simp only [stringEncoding, stringKind, if_pos small, List.singleton_append]
      exact split_byte below rest
    · simp only [stringEncoding, stringKind, if_neg small]
      exact split_puthead_string bound (fun _ same => by cases same; exact small) rest
  · exact split_puthead_string bound (fun _ same => by simp at same) rest

/-- `Split` takes a list's encoding off the front of a buffer, and gives its content. -/
theorem split_listEncoding {content : List UInt8} (bound : content.length < 2 ^ 64)
    (rest : List UInt8) : split (listEncoding content ++ rest) = .ok (.list, content, rest) := by
  unfold listEncoding puthead
  split
  · rename_i small
    have read : kindOfHeader _ ([] ++ content ++ rest) =
        .ok (.list, ([] : List UInt8).length + 1, content.length) :=
      kindOfHeader_short_list small _
    exact split_of_header read
  · rename_i large
    have read := kindOfHeader_long_list (by omega) bound (content ++ rest)
    rw [← List.append_assoc] at read
    exact split_of_header read

theorem splitString_stringEncoding {b : List UInt8} (bound : b.length < 2 ^ 64)
    (rest : List UInt8) : splitString (stringEncoding b ++ rest) = .ok (b, rest) := by
  simp [splitString, split_stringEncoding bound, stringKind_ne_list, bind, Except.bind, pure,
    Except.pure]

theorem splitList_listEncoding {content : List UInt8} (bound : content.length < 2 ^ 64)
    (rest : List UInt8) : splitList (listEncoding content ++ rest) = .ok (content, rest) := by
  simp [splitList, split_listEncoding bound, bind, Except.bind, pure, Except.pure]

theorem length_le_stringEncoding (b : List UInt8) : b.length ≤ (stringEncoding b).length := by
  unfold stringEncoding
  split
  · split <;> simp
  · simp

theorem length_lt_listEncoding (content : List UInt8) :
    content.length < (listEncoding content).length := by
  unfold listEncoding puthead
  split <;> simp

end Split

section CountValues

/-- What `Split` takes off is what `readKind` reads, and what it leaves the rest of the buffer. -/
theorem readKind_of_split {b content rest : List UInt8} {k : Kind}
    (splitted : split b = .ok (k, content, rest)) :
    ∃ tagsize size, readKind b = .ok (k, tagsize, size) ∧ rest = b.drop (tagsize + size) := by
  unfold split at splitted
  cases read : readKind b with
  | error err => simp [read, bind, Except.bind] at splitted
  | ok parsed =>
    obtain ⟨k', tagsize, size⟩ := parsed
    simp only [read, bind, Except.bind, pure, Except.pure, Except.ok.injEq, Prod.mk.injEq]
      at splitted
    obtain ⟨rfl, -, rfl⟩ := splitted
    exact ⟨tagsize, size, rfl, rfl⟩

@[simp] theorem countValues_nil : countValues [] = .ok 0 := by
  rw [countValues, if_pos rfl]

/-- `CountValues` counts the first value and goes on after it. -/
theorem countValues_of_split {b content rest : List UInt8} {k : Kind}
    (splitted : split b = .ok (k, content, rest)) :
    countValues b = (countValues rest).map (· + 1) := by
  obtain ⟨tagsize, size, read, rfl⟩ := readKind_of_split splitted
  rw [countValues, if_neg (readKind_ok read).1]
  split
  · rename_i failed
    rw [read] at failed
    cases failed
  · rename_i read'
    rw [read] at read'
    cases read'
    rfl

/-- A concatenation of encodings holds as many values as it has encodings. -/
theorem countValues_flatMap {ι : Type} (items : List ι) (enc : ι → List UInt8)
    (splits : ∀ i ∈ items, ∀ rest, ∃ k content, split (enc i ++ rest) = .ok (k, content, rest)) :
    countValues (items.flatMap enc) = .ok items.length := by
  induction items with
  | nil => rw [List.flatMap_nil, countValues_nil, List.length_nil]
  | cons item items inductionHypothesis =>
    obtain ⟨k, content, splitted⟩ := splits item (by simp) (items.flatMap enc)
    rw [List.flatMap_cons, countValues_of_split splitted,
      inductionHypothesis fun i mem => splits i (by simp [mem])]
    rfl

end CountValues

end Tangerine.Proof.RlpSplit
