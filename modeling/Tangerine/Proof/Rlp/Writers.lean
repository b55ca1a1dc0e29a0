import Tangerine.Rlp.Encode
import Tangerine.Library.Loop
import Tangerine.Library.Transition

/-! The three outputs of an `encbuf` agree: `toBytes`, `toWriter` and `encReader`. -/

namespace Tangerine.Proof.Writers

open Tangerine.Rlp Tangerine.Rlp.EncBuf Tangerine.Library

/-! ### Headers in order -/

/-- The headers sit in order at offsets from `lo` to `hi`. -/
def Placed (lo hi : Nat) : List ListHead → Prop
  | [] => lo ≤ hi
  | head :: heads => lo ≤ head.offset ∧ Placed head.offset hi heads

theorem Placed.le {lo hi : Nat} : {heads : List ListHead} → Placed lo hi heads → lo ≤ hi
  | [], placed => placed
  | _ :: _, placed => le_trans placed.1 (Placed.le placed.2)

theorem Placed.mono {lo lo' hi : Nat} (lower : lo' ≤ lo) :
    {heads : List ListHead} → Placed lo hi heads → Placed lo' hi heads
  | [], placed => le_trans lower placed
  | _ :: _, placed => ⟨le_trans lower placed.1, placed.2⟩

theorem Placed.append {lo mid hi : Nat} :
    {first : List ListHead} → {rest : List ListHead} → Placed lo mid first → Placed mid hi rest →
      Placed lo hi (first ++ rest)
  | [], _, placedFirst, placedRest => placedRest.mono placedFirst
  | _ :: _, _, placedFirst, placedRest => ⟨placedFirst.1, Placed.append placedFirst.2 placedRest⟩

/-- The total size of the encoded headers. -/
def headerBytes (heads : List ListHead) : Nat := (heads.map fun head => head.encode.length).sum

@[simp] theorem headerBytes_nil : headerBytes [] = 0 := rfl

@[simp] theorem headerBytes_cons (head : ListHead) (heads : List ListHead) :
    headerBytes (head :: heads) = head.encode.length + headerBytes heads := rfl

theorem headerBytes_append (first rest : List ListHead) :
    headerBytes (first ++ rest) = headerBytes first + headerBytes rest := by
  simp [headerBytes]

theorem length_encode (head : ListHead) : head.encode.length = headsize head.size := by
  unfold ListHead.encode puthead headsize intsize
  split <;> simp [Nat.add_comm]

/-! ### `toBytes` -/

/-- The string data before a header, when the header is not before the position. -/
theorem length_before {str : List UInt8} {strpos offset : Nat} (inside : offset ≤ str.length) :
    ((str.drop strpos).take (offset - strpos)).length = offset - strpos := by
  simp only [List.length_take, List.length_drop]
  omega

theorem length_splice {str : List UInt8} {strpos : Nat} {heads : List ListHead}
    (placed : Placed strpos str.length heads) :
    (splice str strpos heads).length = str.length - strpos + headerBytes heads := by
  induction heads generalizing strpos with
  | nil => simp [splice]
  | cons head heads inductionHypothesis =>
      have rest := inductionHypothesis placed.2
      have ordered := placed.2.le
      simp only [splice, List.length_append, rest, headerBytes_cons,
        length_before ordered]
      have := placed.1
      omega

/-! ### `toWriter` -/

theorem foldl_writeHead (w : EncBuf) {strpos : Nat} {heads : List ListHead}
    (placed : Placed strpos w.str.length heads) (writes : List (List UInt8)) :
    strpos ≤ (heads.foldl w.writeHead (strpos, writes)).1 ∧
      (heads.foldl w.writeHead (strpos, writes)).1 ≤ w.str.length ∧
      (heads.foldl w.writeHead (strpos, writes)).2.flatten ++
          w.str.drop (heads.foldl w.writeHead (strpos, writes)).1 =
        writes.flatten ++ splice w.str strpos heads := by
  induction heads generalizing strpos writes with
  | nil => exact ⟨le_refl _, placed, by simp [splice]⟩
  | cons head heads inductionHypothesis =>
      have ordered := placed.2.le
      -- the header is at the position or after it; the data before it is written first
      obtain ⟨written, stepped, flat⟩ : ∃ written, w.writeHead (strpos, writes) head =
          (head.offset, written) ∧ written.flatten =
            writes.flatten ++ (w.str.drop strpos).take (head.offset - strpos) ++ head.encode := by
        by_cases before : strpos < head.offset
        · refine ⟨writes ++ [(w.str.drop strpos).take (head.offset - strpos)] ++ [head.encode],
            ?_, by simp⟩
          simp only [writeHead, if_pos before, length_before ordered]
          congr 1
          omega
        · have same : strpos = head.offset := le_antisymm placed.1 (Nat.le_of_not_lt before)
          subst same
          exact ⟨writes ++ [head.encode], by simp [writeHead], by simp⟩
      obtain ⟨lower, upper, rest⟩ := inductionHypothesis placed.2 written
      rw [List.foldl_cons, stepped]
      refine ⟨le_trans placed.1 lower, upper, ?_⟩
      rw [rest, flat]
      simp [splice]

/-- `toWriter` writes the bytes of `toBytes`. -/
theorem flatten_toWriter {w : EncBuf} (placed : Placed 0 w.str.length w.lheads) :
    w.toWriter.flatten = w.toBytes := by
  obtain ⟨-, upper, written⟩ := foldl_writeHead w placed []
  rcases looped : w.lheads.foldl w.writeHead (0, []) with ⟨strpos, writes⟩
  rw [looped] at written
  simp only [toWriter, toBytes, looped]
  split_ifs with tail
  · simpa using written
  · have nothingLeft : w.str.drop strpos = [] := List.drop_of_length_le (Nat.le_of_not_lt tail)
    simpa [nothingLeft] using written

/-! ### `encReader` -/

namespace Reader

open EncReader

/-- The headers left sit in order inside the string data, from the position on. -/
def ReaderPlaced (r : EncReader) : Prop :=
  match r.buf with
  | none => True
  | some buf => Placed r.strpos buf.str.length (buf.lheads.drop r.lhpos)

/-- What is left to be read: the piece held, then the rest of the buffer spliced. -/
def remaining (r : EncReader) : List UInt8 :=
  match r.buf with
  | none => []
  | some buf => r.piece.getD [] ++ splice buf.str r.strpos (buf.lheads.drop r.lhpos)

theorem remaining_hold {r : EncReader} {buf : EncBuf} (found : r.buf = some buf)
    (piece : List UInt8) :
    remaining { r with piece := some piece } = piece ++ remaining { r with piece := none } := by
  simp [remaining, found]

/-- A piece `next` hands out is the front of what is left, and the reader is left placed. -/
theorem next_some {r r' : EncReader} {piece : List UInt8} (placed : ReaderPlaced r)
    (taken : r.next = (some piece, r')) :
    r'.buf = r.buf ∧ r.buf.isSome ∧ remaining r = piece ++ remaining { r' with piece := none } ∧
      ReaderPlaced { r' with piece := none } := by
  unfold next at taken
  cases found : r.buf with
  | none => simp [found] at taken
  | some buf =>
      simp only [found] at taken placed
      simp only [ReaderPlaced, found] at placed
      cases held : r.piece with
      | some _ =>
          simp only [held, Prod.mk.injEq, Option.some.injEq] at taken
          obtain ⟨rfl, rfl⟩ := taken
          exact ⟨found, rfl, by simp [remaining, found, held],
            by simpa [ReaderPlaced, found] using placed⟩
      | none =>
          simp only [held] at taken
          cases looked : buf.lheads[r.lhpos]? with
          | some head =>
              simp only [looked] at taken
              obtain ⟨inside, atHead⟩ := List.getElem?_eq_some_iff.mp looked
              have split : buf.lheads.drop r.lhpos = head :: buf.lheads.drop (r.lhpos + 1) := by
                rw [List.drop_eq_getElem_cons inside, atHead]
              rw [split] at placed
              split_ifs at taken with before
              · -- the string data before the header
                simp only [Prod.mk.injEq, Option.some.injEq] at taken
                obtain ⟨rfl, rfl⟩ := taken
                refine ⟨rfl, rfl, ?_, ?_⟩
                · simp [remaining, found, held, split, splice]
                · simpa [ReaderPlaced, found, split] using ⟨le_refl _, placed.2⟩
              · -- the header itself, at the position
                have same : r.strpos = head.offset := le_antisymm placed.1 (Nat.le_of_not_lt before)
                simp only [Prod.mk.injEq, Option.some.injEq] at taken
                obtain ⟨rfl, rfl⟩ := taken
                refine ⟨rfl, rfl, ?_, ?_⟩
                · simp [remaining, found, held, split, splice, same]
                · simpa [ReaderPlaced, found, same] using placed.2
          | none =>
              simp only [looked] at taken
              have ended : buf.lheads.drop r.lhpos = [] :=
                List.drop_eq_nil_of_le (by simpa using looked)
              split_ifs at taken with before
              · simp only [Prod.mk.injEq, Option.some.injEq] at taken
                obtain ⟨rfl, rfl⟩ := taken
                refine ⟨rfl, rfl, ?_, ?_⟩
                · simp [remaining, found, held, ended, splice]
                · simp [ReaderPlaced, ended, Placed]
              · simp at taken

/-- At EOF nothing is left. -/
theorem next_none {r r' : EncReader} (taken : r.next = (none, r')) :
    remaining r = [] := by
  unfold next at taken
  cases found : r.buf with
  | none => simp [remaining, found]
  | some buf =>
      simp only [found] at taken
      cases held : r.piece with
      | some _ => simp [held] at taken
      | none =>
          simp only [held] at taken
          cases looked : buf.lheads[r.lhpos]? with
          | some head =>
              simp only [looked] at taken
              split_ifs at taken <;> simp at taken
          | none =>
              simp only [looked] at taken
              have ended : buf.lheads.drop r.lhpos = [] :=
                List.drop_eq_nil_of_le (by simpa using looked)
              split_ifs at taken with before
              · simp at taken
              · simp [remaining, found, held, ended, splice,
                  List.drop_of_length_le (Nat.le_of_not_lt before)]

/-- What a read gives against what was left before it. -/
def ReadsFrom (k : Nat) (n left : List UInt8) (result : List UInt8 × EncReader × Bool) : Prop :=
  result.1 = n ++ left.take (k - n.length) ∧ remaining result.2.1 = left.drop (k - n.length) ∧
    ReaderPlaced result.2.1 ∧ result.2.2 = decide (left.length ≤ k - n.length)

/-- The loop of `Read` fills its buffer from what is left, one piece after another. -/
theorem readLoop_spec (k : Nat) (n : List UInt8) (r : EncReader) (placed : ReaderPlaced r) :
    ReadsFrom k n (remaining r) (readLoop k n r) := by
  fun_induction readLoop k n r with
  | case1 n r r' taken =>
      rw [next_none taken]
      exact ⟨by simp, by simp [remaining], trivial, by simp⟩
  | case2 n r piece r' taken nn n' short =>
      -- the piece does not fit: the buffer is filled and the rest of the piece kept
      obtain ⟨sameBuf, present, front, rest⟩ := next_some placed taken
      obtain ⟨buf, found⟩ := Option.isSome_iff_exists.mp present
      have cut : nn = k - n.length := by
        have : nn = min (k - n.length) piece.length := rfl
        omega
      have within : nn ≤ piece.length := short.le
      refine ⟨?_, ?_, rest, ?_⟩
      · rw [front, ← cut, List.take_append_of_le_length within]
      · rw [front, ← cut, List.drop_append_of_le_length within]
        exact remaining_hold (sameBuf.trans found) _
      · rw [front, ← cut]
        simp only [List.length_append, Bool.false_eq, decide_eq_false_iff_not]
        omega
  | case3 n r piece r' taken nn n' full inductionHypothesis =>
      -- the piece fits whole, and the loop goes on from the next one
      obtain ⟨-, -, front, rest⟩ := next_some placed taken
      obtain ⟨out, left, placedAfter, eof⟩ := inductionHypothesis rest
      have whole : nn = piece.length := by
        have : nn = min (k - n.length) piece.length := rfl
        omega
      have fits : piece.length ≤ k - n.length := by
        have : nn = min (k - n.length) piece.length := rfl
        omega
      have read : n' = n ++ piece := by
        show n ++ piece.take nn = n ++ piece
        rw [whole, List.take_length]
      have shorter : k - n'.length = k - n.length - piece.length := by
        rw [read, List.length_append]
        omega
      refine ⟨?_, ?_, placedAfter, ?_⟩
      · rw [out, front, shorter, read, List.take_append, List.take_of_length_le fits,
          List.append_assoc]
      · rw [left, front, shorter, List.drop_append, List.drop_of_length_le fits, List.nil_append]
      · rw [eof, front, shorter, List.length_append]
        simp only [decide_eq_decide]
        omega

/-- `Read` into `k` bytes gives the first `k` bytes left, or all of them with EOF. -/
theorem read_spec (r : EncReader) (k : Nat) (placed : ReaderPlaced r) :
    ReadsFrom k [] (remaining r) (r.read k) :=
  readLoop_spec k [] r placed

/-- Reads of the given sizes one after another, stopping at EOF. -/
def readChunks (r : EncReader) : List Nat → List UInt8 × Bool
  | [] => ([], false)
  | k :: sizes =>
    let (bytes, r, eof) := r.read k
    if eof then (bytes, true) else
      let (rest, eof) := readChunks r sizes
      (bytes ++ rest, eof)

/-- Reading in chunks of any sizes gives what is left, up to the sizes' sum. -/
theorem readChunks_spec (sizes : List Nat) (r : EncReader) (placed : ReaderPlaced r) :
    readChunks r sizes =
      ((remaining r).take sizes.sum, !sizes.isEmpty && decide ((remaining r).length ≤ sizes.sum)) := by
  induction sizes generalizing r with
  | nil => simp [readChunks]
  | cons k sizes inductionHypothesis =>
      obtain ⟨out, left, placedAfter, eof⟩ := read_spec r k placed
      simp only [List.length_nil, Nat.sub_zero, List.nil_append] at out left eof
      rcases result : r.read k with ⟨bytes, r', ended⟩
      rw [result] at out left placedAfter eof
      simp only at out left placedAfter eof
      subst out eof
      rw [readChunks, result, List.sum_cons]
      by_cases fits : (remaining r).length ≤ k
      · -- this read returns EOF with everything left
        have whole : (remaining r).take (k + sizes.sum) = (remaining r).take k := by
          rw [List.take_of_length_le fits, List.take_of_length_le (by omega)]
        simp [fits, whole, show (remaining r).length ≤ k + sizes.sum by omega]
      · have going : decide ((remaining r).length ≤ k) = false := by simpa using fits
        simp only [going, Bool.false_eq_true, if_false, inductionHypothesis r' placedAfter, left,
          List.take_add, List.length_drop, List.isEmpty_cons, Bool.not_false, Bool.true_and]
        congr 1
        cases sizes with
        | nil => simpa using fits
        | cons _ _ =>
            simp only [List.isEmpty_cons, Bool.not_false, Bool.true_and, decide_eq_decide]
            omega

end Reader

/-! ### What the writers build -/

/-- `w'` is `w` with string data appended and headers added after its own. -/
structure Extends (w w' : EncBuf) : Prop where
  str : w.str <+: w'.str
  heads : ∃ added, w'.lheads = w.lheads ++ added ∧ Placed w.str.length w'.str.length added ∧
    w'.lhsize = w.lhsize + headerBytes added

theorem Extends.refl (w : EncBuf) : Extends w w :=
  ⟨List.prefix_refl _, [], by simp, le_refl _, by simp⟩

theorem Extends.trans {w w' w'' : EncBuf} (first : Extends w w') (second : Extends w' w'') :
    Extends w w'' := by
  obtain ⟨prefixFirst, added, heads, placed, sized⟩ := first
  obtain ⟨prefixSecond, added', heads', placed', sized'⟩ := second
  refine ⟨prefixFirst.trans prefixSecond, added ++ added', ?_, ?_, ?_⟩
  · rw [heads', heads, List.append_assoc]
  · exact placed.append (placed'.mono (le_refl _))
  · rw [sized', sized, headerBytes_append, Nat.add_assoc]

theorem extends_append (w : EncBuf) (bytes : List UInt8) : Extends w (w.append bytes) :=
  ⟨List.prefix_append _ _, [], by simp [EncBuf.append], by simp [EncBuf.append, Placed],
    by simp [EncBuf.append]⟩

theorem extends_encodeString (w : EncBuf) (b : List UInt8) : Extends w (w.encodeString b) := by
  have header : ∀ (w : EncBuf) size, Extends w (w.encodeStringHeader size) := by
    intro w size
    unfold encodeStringHeader
    split <;> exact extends_append _ _
  unfold encodeString
  split
  · split
    · exact extends_append _ _
    · exact (header w 1).trans (extends_append _ _)
  · exact (header w _).trans (extends_append _ _)

theorem extends_writeUint (v : Value) (w : EncBuf) : Extends w (writeUint v w) := by
  unfold writeUint
  dsimp only
  split_ifs <;> exact extends_append _ _

theorem extends_writeBool (v : Value) (w : EncBuf) : Extends w (writeBool v w) := by
  unfold writeBool
  split <;> exact extends_append _ _

theorem extends_writeBigInt {i : Int} {w w' : EncBuf} (wrote : writeBigInt i w = .ok w') :
    Extends w w' := by
  unfold writeBigInt at wrote
  split_ifs at wrote
  · cases wrote
    exact extends_append _ _
  · cases wrote
    exact extends_encodeString _ _

/-- A list: its header opened, its content written, and the header closed and counted. -/
theorem extends_listEnd {w w' : EncBuf} (content : Extends w.list.2 w') :
    Extends w (w'.listEnd w.list.1) := by
  obtain ⟨prefixed, added, heads, placed, sized⟩ := content
  simp only [EncBuf.list] at prefixed heads placed sized ⊢
  -- the list's header, at the index it was opened at
  have opened : w'.lheads.getD w.lheads.length ⟨0, 0⟩ = ⟨w.str.length, w.lhsize⟩ := by
    rw [heads]
    simp [List.getD_eq_getElem?_getD]
  refine ⟨prefixed, ⟨w.str.length, w'.size - w.str.length - w.lhsize⟩ :: added, ?_, ?_, ?_⟩
  · simp only [listEnd, heads]
    simp [List.set_append_right]
  · exact ⟨le_refl _, placed⟩
  · simp only [listEnd, opened, sized, headerBytes_cons, length_encode, headsize]
    split_ifs <;> omega

theorem extends_foldlM {f : EncBuf → Value → Except Error EncBuf}
    (step : ∀ w x w', f w x = .ok w' → Extends w w') {xs : List Value} {w w' : EncBuf}
    (wrote : xs.foldlM f w = .ok w') : Extends w w' :=
  @foldlM_invariant _ _ _ (fun w' => Extends w w') f
    (fun _ x _ held stepped => held.trans (step _ x _ stepped)) xs _ _ (Extends.refl w) wrote

/-- A list written by `body` between its header's opening and closing. -/
theorem extends_listed {w w' : EncBuf} (body : EncBuf → Except Error EncBuf)
    (content : ∀ w'', body w.list.2 = .ok w'' → Extends w.list.2 w'')
    (wrote : (let (index, w) := w.list; (body w).map fun x : EncBuf => x.listEnd index) = .ok w') :
    Extends w w' := by
  change (body w.list.2).map (·.listEnd w.list.1) = .ok w' at wrote
  cases written : body w.list.2 with
  | error err => rw [written] at wrote; cases wrote
  | ok w'' =>
      rw [written] at wrote
      cases wrote
      exact extends_listEnd (content w'' written)

theorem sizeOf_type_lt_of_mem {field : Rlp.Field Ty} {fields : List (Rlp.Field Ty)}
    (member : field ∈ fields) : sizeOf field.type < 1 + sizeOf fields := by
  have inList := List.sizeOf_lt_of_mem member
  cases field
  simp only [Rlp.Field.mk.sizeOf_spec] at inList ⊢
  omega

theorem writeFields_extends {typ : Ty} {count : Nat} {values : List Value}
    {fields : List (Rlp.Field Ty)}
    (each : ∀ field ∈ fields, ∀ ts v w w', writer field.type ts v w = .ok w' → Extends w w')
    {index : Nat} {w w' : EncBuf} (wrote : writeFields typ count values fields index w = .ok w') :
    Extends w w' := by
  induction fields generalizing index w with
  | nil => cases wrote; exact Extends.refl _
  | cons field rest inductionHypothesis =>
      have later := fun field member => each field (List.mem_cons_of_mem _ member)
      unfold writeFields at wrote
      split_ifs at wrote with exported
      · split at wrote
        · cases wrote
        · split_ifs at wrote with ignored
          · exact inductionHypothesis later wrote
          · obtain ⟨written, first, rest⟩ := except_bind_eq_ok.mp wrote
            exact (each field List.mem_cons_self _ _ _ _ first).trans
              (inductionHypothesis later rest)
      · exact inductionHypothesis later wrote

/-- Every writer only appends data and adds headers after the ones it was given. -/
theorem writer_extends (ty : Ty) (ts : Tags) (v : Value) (w w' : EncBuf)
    (wrote : writer ty ts v w = .ok w') : Extends w w' := by
  rw [writer.eq_def] at wrote
  split at wrote
  · cases wrote; exact extends_append _ _
  · split at wrote
    · cases wrote; exact extends_append _ _
    · exact extends_writeBigInt wrote
  · exact extends_writeBigInt wrote
  · cases wrote; exact extends_writeUint _ _
  · cases wrote; exact extends_writeBool _ _
  · cases wrote; exact extends_encodeString _ _
  · rename_i elem
    have each := fun w x w' step => writer_extends elem {} x w w' step
    split_ifs at wrote
    · cases wrote; exact extends_encodeString _ _
    · exact extends_foldlM each wrote
    · exact extends_listed (fun w => v.elems.foldlM (fun w x => writer elem {} x w) w)
        (fun _ step => extends_foldlM each step) wrote
  · rename_i elem
    have each := fun w x w' step => writer_extends elem {} x w w' step
    split_ifs at wrote
    · cases wrote; exact extends_encodeString _ _
    · exact extends_listed (fun w => v.elems.foldlM (fun w x => writer elem {} x w) w)
        (fun _ step => extends_foldlM each step) wrote
  · rename_i fields
    exact extends_listed (fun w => writeFields (.struct fields) fields.length v.elems fields 0 w)
      (fun _ step => writeFields_extends
        (fun field member ts v w w' step => writer_extends field.type ts v w w' step) step) wrote
  · split at wrote
    · exact writer_extends _ _ _ w w' wrote
    · split_ifs at wrote
      · cases wrote; exact extends_append _ _
      · cases wrote; exact extends_listEnd (Extends.refl _)
      · exact writer_extends _ _ _ w w' wrote
termination_by sizeOf ty
decreasing_by
  all_goals
    subst_vars
    simp only [Ty.slice.sizeOf_spec, Ty.array.sizeOf_spec, Ty.ptr.sizeOf_spec, Ty.struct.sizeOf_spec]
    first | omega | exact sizeOf_type_lt_of_mem (by assumption)

/-- A buffer a writer fills from empty has its headers in order, each counted in `lhsize`. -/
theorem placed_of_writer {ty : Ty} {ts : Tags} {v : Value} {w : EncBuf}
    (wrote : writer ty ts v {} = .ok w) :
    Placed 0 w.str.length w.lheads ∧ w.lhsize = headerBytes w.lheads := by
  obtain ⟨-, added, heads, placed, sized⟩ := writer_extends ty ts v {} w wrote
  simp only [List.nil_append, List.length_nil, Nat.zero_add] at heads placed sized
  subst heads
  exact ⟨placed, sized⟩

theorem length_toBytes {w : EncBuf} (placed : Placed 0 w.str.length w.lheads)
    (sized : w.lhsize = headerBytes w.lheads) : w.toBytes.length = w.size := by
  rw [toBytes, length_splice placed, size, sized, Nat.sub_zero]

theorem remaining_start (w : EncBuf) : Reader.remaining ⟨some w, 0, 0, none⟩ = w.toBytes := by
  simp [Reader.remaining, toBytes]

theorem encoders_agree (ty : Ty) (v : Value) :
    (encode ty v).map List.flatten = encodeToBytes ty v ∧
    (encodeToReader ty v).map Prod.fst = (encodeToBytes ty v).map List.length ∧
    ∀ bytes, encodeToBytes ty v = .ok bytes →
      ∃ r, encodeToReader ty v = .ok (bytes.length, r) ∧
        ∀ sizes, Reader.readChunks r sizes =
          (bytes.take sizes.sum, !sizes.isEmpty && decide (bytes.length ≤ sizes.sum)) := by
  unfold encode encodeToBytes encodeToReader
  cases ty.typeInfo with
  | error err => exact ⟨rfl, rfl, fun _ failed => nomatch failed⟩
  | ok _ =>
      cases wrote : writer ty {} v {} with
      | error err => exact ⟨rfl, rfl, fun _ failed => nomatch failed⟩
      | ok w =>
          obtain ⟨placed, sized⟩ := placed_of_writer wrote
          refine ⟨?_, ?_, ?_⟩
          · simp [Except.map, flatten_toWriter placed]
          · simp [Except.map, length_toBytes placed sized]
          · rintro bytes ⟨⟩
            refine ⟨⟨some w, 0, 0, none⟩, by simp [Except.map, length_toBytes placed sized], ?_⟩
            intro sizes
            have started : Reader.ReaderPlaced ⟨some w, 0, 0, none⟩ := by
              simpa [Reader.ReaderPlaced] using placed
            rw [Reader.readChunks_spec sizes _ started, remaining_start]

end Tangerine.Proof.Writers
