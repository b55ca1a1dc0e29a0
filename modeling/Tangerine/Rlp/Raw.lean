import Tangerine.Rlp.Decode

/-! The raw splitting of RLP data (`rlp/raw.go`), and the encodings of strings and lists. -/

namespace Tangerine.Rlp

open Tangerine.Library

/-- `readSize`: a size of `slen` bytes, big-endian, in canonical form. -/
def readSize (b : List UInt8) (slen : Nat) : Except Error Nat :=
  if slen > b.length then .error .unexpectedEOF
  else
    let s := BigEndian.ofBytes (b.take slen)
    if s < 56 ∨ b.headD 0 = 0 then .error .canonSize else .ok s

/-- The `switch` of `readKind` on the first byte `b` of a buffer. -/
def kindOfHeader (b : UInt8) (rest : List UInt8) : Except Error (Kind × Nat × Nat) :=
  if b < 0x80 then .ok (.byte, 0, 1)
  else if b < 0xB8 then
    let contentsize := (b - 0x80).toNat
    -- Reject strings that should've been single bytes.
    if contentsize = 1 ∧ rest ≠ [] ∧ rest.headD 0 < 128 then .error .canonSize
    else .ok (.string, 1, contentsize)
  else if b < 0xC0 then
    (readSize rest (b - 0xB7).toNat).map fun contentsize => (.string, (b - 0xB7).toNat + 1, contentsize)
  else if b < 0xF8 then .ok (.list, 1, (b - 0xC0).toNat)
  else
    (readSize rest (b - 0xF7).toNat).map fun contentsize => (.list, (b - 0xF7).toNat + 1, contentsize)

/-- `readKind` of a buffer. -/
def readKind (buf : List UInt8) : Except Error (Kind × Nat × Nat) := do
  match buf with
  | [] => .error .unexpectedEOF
  | b :: rest =>
    let (k, tagsize, contentsize) ← kindOfHeader b rest
    -- Reject values larger than the input slice.
    if contentsize > buf.length - tagsize then .error .valueTooLarge
    else pure (k, tagsize, contentsize)

/-- A header takes a byte, or is the single byte that is its own content. -/
theorem kindOfHeader_consumes {b : UInt8} {rest : List UInt8} {k : Kind}
    {tagsize contentsize : Nat} (read : kindOfHeader b rest = .ok (k, tagsize, contentsize)) :
    1 ≤ tagsize + contentsize := by
  unfold kindOfHeader at read
  dsimp only at read
  split_ifs at read
  -- the header forms have a tag byte, and the single byte is its own content
  all_goals first
    | (cases read <;> omega)
    | (unfold Except.map at read
       split at read
       · cases read
       · simp only [Except.ok.injEq, Prod.mk.injEq] at read
         obtain ⟨-, rfl, rfl⟩ := read
         omega)

/-- `Split`: the kind and content of the first value, and the bytes after it. -/
def split (b : List UInt8) : Except Error (Kind × List UInt8 × List UInt8) := do
  let (k, ts, cs) ← readKind b
  pure (k, (b.drop ts).take cs, b.drop (ts + cs))

/-- `SplitString`: the content of a string first value and the bytes after it. -/
def splitString (b : List UInt8) : Except Error (List UInt8 × List UInt8) := do
  let (k, content, rest) ← split b
  if k = .list then .error .expectedString else pure (content, rest)

/-- `SplitList`: the content of a list first value and the bytes after it. -/
def splitList (b : List UInt8) : Except Error (List UInt8 × List UInt8) := do
  let (k, content, rest) ← split b
  if k ≠ .list then .error .expectedList else pure (content, rest)

/-- Every value `readKind` reads takes a byte at least. -/
theorem readKind_consumes {buf : List UInt8} {k : Kind} {tagsize contentsize : Nat}
    (read : readKind buf = .ok (k, tagsize, contentsize)) : 1 ≤ tagsize + contentsize := by
  unfold readKind at read
  split at read
  · cases read
  · rename_i b rest
    cases header : kindOfHeader b rest with
    | error err => simp [header, bind, Except.bind] at read
    | ok parsed =>
        obtain ⟨k', tagsize', contentsize'⟩ := parsed
        simp only [header, bind, Except.bind] at read
        split at read
        · cases read
        · cases read
          exact kindOfHeader_consumes header

/-- A list header takes a byte. -/
theorem kindOfHeader_list {b : UInt8} {rest : List UInt8} {tagsize contentsize : Nat}
    (read : kindOfHeader b rest = .ok (.list, tagsize, contentsize)) : 1 ≤ tagsize := by
  unfold kindOfHeader at read
  dsimp only at read
  split_ifs at read
  all_goals first
    | (cases read <;> omega)
    | (unfold Except.map at read
       split at read
       · cases read
       · simp only [Except.ok.injEq, Prod.mk.injEq] at read
         obtain ⟨-, rfl, rfl⟩ := read
         omega)

/-- What `readKind` reads on success: a header from a nonempty buffer. -/
theorem readKind_ok {buf : List UInt8} {k : Kind} {tagsize contentsize : Nat}
    (read : readKind buf = .ok (k, tagsize, contentsize)) :
    buf ≠ [] ∧ 1 ≤ tagsize + contentsize ∧ (k = .list → 1 ≤ tagsize) := by
  refine ⟨fun empty => ?_, readKind_consumes read, fun list => ?_⟩
  · subst empty
    cases read
  subst list
  unfold readKind at read
  split at read
  · cases read
  · rename_i b rest
    cases header : kindOfHeader b rest with
    | error err => simp [header, bind, Except.bind] at read
    | ok parsed =>
        obtain ⟨k', tagsize', contentsize'⟩ := parsed
        simp only [header, bind, Except.bind] at read
        split at read
        · cases read
        · cases read
          exact kindOfHeader_list header

/-- The bytes after the first value are fewer than the buffer's. -/
theorem split_rest_length {b : List UInt8} {k : Kind} {content rest : List UInt8}
    (split : split b = .ok (k, content, rest)) : rest.length < b.length := by
  unfold Rlp.split at split
  cases read : readKind b with
  | error err => simp [read, bind, Except.bind] at split
  | ok parsed =>
      obtain ⟨k', tagsize, contentsize⟩ := parsed
      simp only [read, bind, Except.bind, pure, Except.pure, Except.ok.injEq, Prod.mk.injEq]
        at split
      obtain ⟨-, -, rfl⟩ := split
      obtain ⟨nonempty, consumed, -⟩ := readKind_ok read
      have positive : 0 < b.length := List.length_pos_iff.mpr nonempty
      rw [List.length_drop]
      omega

/-- The content of a list is shorter than the buffer it heads. -/
theorem splitList_content_length {b content rest : List UInt8}
    (split : splitList b = .ok (content, rest)) : content.length < b.length := by
  unfold splitList at split
  cases splitted : Rlp.split b with
  | error err => simp [splitted, bind, Except.bind] at split
  | ok parsed =>
      obtain ⟨k, content', rest'⟩ := parsed
      simp only [splitted, bind, Except.bind] at split
      split at split
      · cases split
      · rename_i list
        simp only [ne_eq, Decidable.not_not] at list
        subst list
        simp only [pure, Except.pure, Except.ok.injEq, Prod.mk.injEq] at split
        obtain ⟨rfl, -⟩ := split
        unfold Rlp.split at splitted
        cases read : readKind b with
        | error err => simp [read, bind, Except.bind] at splitted
        | ok header =>
            obtain ⟨k', tagsize, contentsize⟩ := header
            simp only [read, bind, Except.bind, pure, Except.pure, Except.ok.injEq,
              Prod.mk.injEq] at splitted
            obtain ⟨rfl, rfl, -⟩ := splitted
            obtain ⟨nonempty, -, tagged⟩ := readKind_ok read
            have headed := tagged rfl
            have positive : 0 < b.length := List.length_pos_iff.mpr nonempty
            simp only [List.length_take, List.length_drop]
            omega

/-- The bytes after a string are fewer than the buffer's. -/
theorem splitString_rest_length {b content rest : List UInt8}
    (split : splitString b = .ok (content, rest)) : rest.length < b.length := by
  unfold splitString at split
  cases splitted : Rlp.split b with
  | error err => simp [splitted, bind, Except.bind] at split
  | ok parsed =>
      obtain ⟨k, content', rest'⟩ := parsed
      simp only [splitted, bind, Except.bind] at split
      split at split
      · cases split
      · simp only [pure, Except.pure, Except.ok.injEq, Prod.mk.injEq] at split
        obtain ⟨-, rfl⟩ := split
        exact split_rest_length splitted

/-- `CountValues`: the number of values the buffer holds. -/
def countValues (b : List UInt8) : Except Error Nat :=
  if b = [] then .ok 0
  else
    match read : readKind b with
    | .error err => .error err
    | .ok (_, tagsize, size) => (countValues (b.drop (tagsize + size))).map (· + 1)
termination_by b.length
decreasing_by
  have consumed := readKind_consumes read
  have nonempty : b.length ≠ 0 := by simpa using ‹¬b = []›
  simp only [List.length_drop]
  omega

/-- The encoding of a byte string (`encbuf.encodeString`). -/
def stringEncoding (b : List UInt8) : List UInt8 :=
  match b with
  | [byte] => if byte ≤ 0x7F then [byte] else puthead 0x80 0xB7 1 ++ b
  | _ => puthead 0x80 0xB7 b.length ++ b

/-- The encoding of a list whose content is `content`. -/
def listEncoding (content : List UInt8) : List UInt8 := puthead 0xC0 0xF7 content.length ++ content

end Tangerine.Rlp
