import Tangerine.Rlp.Decode

/-! What each method of the RLP `Stream` does when it succeeds. -/

namespace Tangerine.Proof.RlpStream

open Tangerine.Rlp Tangerine.Library.StateExcept

variable {α : Type} {s s' : Stream} {n : Nat}

/-- The stream once `n` bytes are charged for (`willRead`). -/
def charge (s : Stream) (n : Nat) : Stream :=
  { s with
    kind := none
    stack := match s.stack with
      | tos :: up => { tos with pos := tos.pos + n } :: up
      | [] => []
    remaining := if s.limited then s.remaining - n else s.remaining }

/-- `n` bytes fit in the innermost list and under the input limit. -/
def Fits (s : Stream) (n : Nat) : Prop :=
  (∀ tos up, s.stack = tos :: up → n ≤ tos.size - tos.pos) ∧ (s.limited = true → n ≤ s.remaining)

theorem willRead_spec (fits : Fits s n) : run (Stream.willRead n) s = (.ok (), charge s n) := by
  obtain ⟨inList, inLimit⟩ := fits
  have limit : s.limited = true → ¬s.remaining < n := fun limited => by
    have := inLimit limited
    omega
  rcases stack : s.stack with _ | ⟨tos, up⟩
  · cases limited : s.limited <;>
      simp [Stream.willRead, Stream.rearm, run_bind, charge, stack, limited, limit]
  · have room : ¬tos.size - tos.pos < n := by
      have := inList tos up stack
      omega
    cases limited : s.limited <;>
      simp [Stream.willRead, Stream.rearm, run_bind, charge, stack, limited, limit, room]

theorem readByte_spec {b : UInt8} {rest : List UInt8} (fits : Fits s 1)
    (input : s.input = b :: rest) :
    run Stream.readByte s = (.ok b, { charge s 1 with input := rest }) := by
  have charged : (charge s 1).input = b :: rest := input
  simp [Stream.readByte, run_bind, run_map, willRead_spec fits, charged]

/-- A header byte below `0x80` is a value of its own. -/
theorem readKind_single {b : UInt8} {rest : List UInt8} (fits : Fits s 1)
    (input : s.input = b :: rest) (single : b < 0x80) :
    run Stream.readKind s = (.ok (.byte, 0, none), { charge s 1 with input := rest, byteval := b }) := by
  simp [Stream.readKind, attempt, run_bind, run_tryCatch, run_map, readByte_spec fits input, single]

/-- A header byte from `0xC0` to `0xF7` opens a list of that many bytes less `0xC0`. -/
theorem readKind_shortList {b : UInt8} {rest : List UInt8} (fits : Fits s 1)
    (input : s.input = b :: rest) (list : 0xC0 ≤ b) (short : b < 0xF8) :
    run Stream.readKind s =
      (.ok (.list, (b - 0xC0).toNat, none), { charge s 1 with input := rest, byteval := 0 }) := by
  have notSingle : ¬b < 0x80 := UInt8.not_lt.mpr (UInt8.le_trans (by decide) list)
  have notString : ¬b < 0xB8 := UInt8.not_lt.mpr (UInt8.le_trans (by decide) list)
  have notLongString : ¬b < 0xC0 := UInt8.not_lt.mpr list
  simp [Stream.readKind, attempt, run_bind, run_tryCatch, run_map, readByte_spec fits input,
    notSingle, notString, notLongString, short]

/-- With `Kind` re-armed and the innermost list open, the header ahead is read. -/
theorem nextKind_fresh {k : Kind} {size : Nat} (fresh : s.kind = none)
    (open_ : ∀ tos up, s.stack = tos :: up → tos.pos ≠ tos.size)
    (read : run Stream.readKind { s with kinderr := none } = (.ok (k, size, none), s'))
    (fits : Fits s' size) :
    run Stream.nextKind s = (.ok (k, size), { s' with kind := some k, size := size, kinderr := none }) := by
  obtain ⟨inList, inLimit⟩ := fits
  obtain ⟨input, remaining, limited, kind, size₀, byteval, kinderr, stack⟩ := s
  simp only at fresh open_ read
  subst fresh
  -- the size read is checked against the innermost list, or the input limit at the top level
  have underLimit : ¬(s'.limited = true ∧ s'.remaining < size) := fun ⟨limited', exceeds⟩ => by
    have := inLimit limited'
    omega
  rcases stack with _ | ⟨tos, up⟩ <;> rcases stack' : s'.stack with _ | ⟨tos', up'⟩
  all_goals
    have inList' : ∀ tos up, s'.stack = tos :: up → ¬tos.size - tos.pos < size := fun tos up on => by
      have := inList tos up on
      omega
    simp [Stream.nextKind, run_bind, run_map, read, stack', underLimit, inList', open_]

/-- A cached kind is given again, and nothing is read. -/
theorem nextKind_cached {k : Kind} (cached : s.kind = some k) (clean : s.kinderr = none) :
    run Stream.nextKind s = (.ok (k, s.size), s) := by
  simp [Stream.nextKind, run_bind, cached, clean]

/-- `List` enters the list whose header is ahead. -/
theorem list_spec {size : Nat} (ahead : run Stream.nextKind s = (.ok (.list, size), s')) :
    run Stream.list s =
      (.ok size, { s' with stack := ⟨0, size⟩ :: s'.stack, kind := none, size := 0 }) := by
  simp [Stream.list, run_bind, run_map, ahead]

/-- The header `0xC0 + size` of a list of fewer than 56 bytes is a short list header. -/
theorem shortListHeader {size : Nat} (short : size < 56) :
    0xC0 ≤ 0xC0 + UInt8.ofNat size ∧ 0xC0 + UInt8.ofNat size < 0xF8 ∧
      (0xC0 + UInt8.ofNat size - 0xC0).toNat = size := by
  have value : (0xC0 + UInt8.ofNat size).toNat = 192 + size := by
    rw [UInt8.toNat_add, UInt8.toNat_ofNat']
    simp
    omega
  refine ⟨?_, ?_, ?_⟩
  · rw [UInt8.le_iff_toNat_le, value]
    simp
  · rw [UInt8.lt_iff_toNat_lt, value]
    simp
    omega
  · rw [UInt8.toNat_sub_of_le _ _ (by rw [UInt8.le_iff_toNat_le, value]; simp), value]
    simp

/-- At the top level, the header of a short list is read and the list entered. -/
theorem list_topLevel {size : Nat} {rest : List UInt8} (short : size < 56)
    (fits : size ≤ rest.length) :
    run Stream.list (newStream ((0xC0 + UInt8.ofNat size) :: rest)) =
      (.ok size,
        { input := rest, remaining := rest.length, limited := true, kind := none, size := 0,
          byteval := 0, kinderr := none, stack := [⟨0, size⟩] }) := by
  obtain ⟨list, shortList, sized⟩ := shortListHeader short
  have read := readKind_shortList (s := { newStream ((0xC0 + UInt8.ofNat size) :: rest) with
      kinderr := none })
    ⟨(fun _ _ none => nomatch none), fun _ => by simp [newStream]⟩ rfl list shortList
  rw [sized] at read
  have ahead := nextKind_fresh (s := newStream ((0xC0 + UInt8.ofNat size) :: rest)) rfl
    (fun _ _ none => nomatch none) read
    ⟨fun _ _ onStack => by simp [charge, newStream] at onStack,
      fun _ => by simpa [charge, newStream] using fits⟩
  rw [list_spec ahead]
  simp [charge, newStream]

/-- The stack once the innermost list `tos` is left. -/
def leave (tos : ListPos) : List ListPos → List ListPos
  | parent :: up => { parent with pos := parent.pos + tos.size } :: up
  | [] => []

theorem listEnd_spec {tos : ListPos} {up : List ListPos} (stack : s.stack = tos :: up)
    (atEnd : tos.pos = tos.size) :
    run Stream.listEnd s = (.ok (), { s with stack := leave tos up, kind := none, size := 0 }) := by
  cases up <;> simp [Stream.listEnd, run_bind, stack, atEnd, leave]

/-- `ListEnd` before the end of the innermost list fails and changes nothing. -/
theorem listEnd_notAtEOL {tos : ListPos} {up : List ListPos} (stack : s.stack = tos :: up)
    (unread : tos.pos ≠ tos.size) : run Stream.listEnd s = (.error .notAtEOL, s) := by
  simp [Stream.listEnd, run_bind, stack, unread]

/-- `attempt` never fails: it gives the outcome of what it runs. -/
theorem attempt_spec (x : StreamM α) (s : Stream) :
    run (attempt x) s = (.ok (run x s).1, (run x s).2) := by
  simp only [attempt, run_tryCatch, run_map]
  rcases run x s with ⟨_ | _, _⟩ <;> rfl

theorem wrapping_ok {typ : Ty} {x : StreamM α} {a : α} (ran : run x s = (.ok a, s')) :
    run (wrapping typ x) s = (.ok a, s') := by
  simp [wrapping, run_tryCatch, ran]

theorem wrapping_error {typ : Ty} {x : StreamM α} {e : Error} (ran : run x s = (.error e, s')) :
    run (wrapping typ x) s = (.error (wrapStreamError e typ), s') := by
  simp [wrapping, run_tryCatch, ran]

end Tangerine.Proof.RlpStream
