import Tangerine.Core.Vm.Analysis
import Tangerine.Library.Transition

/-! `codeBitmap` marks exactly the push data of the code's sequential decoding. -/

namespace Tangerine.Proof.JumpDest

open Tangerine.Common Tangerine.Core.Vm Tangerine.Library

/-! ### The sequential decoding -/

/-- The width of an opcode's immediate: `n` after `PUSHn`, nothing after any other. -/
def immediateSize (op : UInt8) : Nat :=
  if op ≥ PUSH1 ∧ op ≤ PUSH32 then (op - PUSH1 + 1).toNat else 0

/-- The instruction starts of `code` from `pc` on, decoding one instruction after another. -/
def startsFrom (code : List UInt8) (pc : Nat) : List Nat :=
  if inside : pc < code.length then pc :: startsFrom code (pc + 1 + immediateSize code[pc]) else []
termination_by code.length - pc

/-- `p` starts an instruction of `code` in its sequential decoding. -/
def InstructionStart (code : List UInt8) (p : Nat) : Prop := p ∈ startsFrom code 0

instance (code : List UInt8) (p : Nat) : Decidable (InstructionStart code p) :=
  inferInstanceAs (Decidable (p ∈ _))

theorem immediateSize_le (op : UInt8) : immediateSize op ≤ 32 := by
  unfold immediateSize PUSH1 PUSH32
  split
  · rename_i push
    simp only [UInt8.le_iff_toNat_le, ge_iff_le] at push
    simp only [UInt8.toNat_add, UInt8.toNat_sub_of_le _ _ (UInt8.le_iff_toNat_le.mpr push.1)]
    simp at push ⊢
    omega
  · omega

theorem startsFrom_of_lt {code : List UInt8} {pc : Nat} (inside : pc < code.length) :
    startsFrom code pc = pc :: startsFrom code (pc + 1 + immediateSize code[pc]) := by
  rw [startsFrom, dif_pos inside]

theorem le_of_mem_startsFrom {code : List UInt8} {pc q : Nat} (member : q ∈ startsFrom code pc) :
    pc ≤ q := by
  fun_induction startsFrom code pc with
  | case1 pc inside inductionHypothesis =>
      rcases List.mem_cons.mp member with rfl | later
      · exact Nat.le_refl _
      · have := inductionHypothesis later
        omega
  | case2 => simp at member

/-! ### Setting bits -/

theorem or_decide_or {m : Bool} {a b c : Prop} [Decidable a] [Decidable b] [Decidable c]
    (same : a ∨ b ↔ c) : (m || decide a || decide b) = (m || decide c) := by
  rw [Bool.or_assoc, ← Bool.decide_or, decide_eq_decide.mpr same]

theorem set_spec (bits : Bitvec) (pos : Nat) (fits : pos < 8 * bits.bytes.length) :
    ∃ bits', bits.set pos = .ok bits' ∧ bits'.bytes.length = bits.bytes.length ∧
      ∀ q, bitAt bits'.bytes q = (bitAt bits.bytes q || decide (q = pos)) := by
  obtain ⟨b, found⟩ : ∃ b, bits.bytes[pos / 8]? = some b :=
    ⟨_, List.getElem?_eq_getElem (by omega)⟩
  refine ⟨⟨bits.bytes.set (pos / 8) (b ||| 0x80 >>> UInt8.ofNat (pos % 8))⟩,
    by simp only [Bitvec.set, found], List.length_set, fun q => ?_⟩
  rw [bitAt_set_or found, bitOf_single (Nat.mod_lt q (by decide)) (Nat.mod_lt pos (by decide)),
    ← Bool.decide_and]
  exact congrArg _ (decide_eq_decide.mpr (by omega))

/-- `set8` sets the eight bits from `pos` on, which needs the byte after `pos`'s. -/
theorem set8_spec (bits : Bitvec) (pos : Nat) (fits : pos + 8 < 8 * bits.bytes.length) :
    ∃ bits', bits.set8 pos = .ok bits' ∧ bits'.bytes.length = bits.bytes.length ∧
      ∀ q, bitAt bits'.bytes q = (bitAt bits.bytes q || decide (pos ≤ q ∧ q < pos + 8)) := by
  obtain ⟨b, found⟩ : ∃ b, bits.bytes[pos / 8]? = some b :=
    ⟨_, List.getElem?_eq_getElem (by omega)⟩
  obtain ⟨b', found'⟩ : ∃ b',
      (bits.bytes.set (pos / 8) (b ||| 0xFF >>> UInt8.ofNat (pos % 8)))[pos / 8 + 1]? = some b' :=
    ⟨_, List.getElem?_eq_getElem (by simp only [List.length_set]; omega)⟩
  refine ⟨⟨(bits.bytes.set (pos / 8) (b ||| 0xFF >>> UInt8.ofNat (pos % 8))).set (pos / 8 + 1)
      (b' ||| ~~~(0xFF >>> UInt8.ofNat (pos % 8)))⟩,
    by simp only [Bitvec.set8, found, found'], by simp, fun q => ?_⟩
  have low := Nat.mod_lt q (by decide : 8 > 0)
  have offset := Nat.mod_lt pos (by decide : 8 > 0)
  rw [bitAt_set_or found', bitAt_set_or found, bitOf_from low offset, bitOf_before low offset]
  simp only [← Bool.decide_and, Bool.or_assoc, ← Bool.decide_or]
  exact congrArg _ (decide_eq_decide.mpr (by omega))

theorem codeSegment_eq (bits : Bitvec) (pos : Nat) (inside : pos < 8 * bits.bytes.length) :
    bits.codeSegment pos = .ok (!bitAt bits.bytes pos) := by
  obtain ⟨b, found⟩ : ∃ b, bits.bytes[pos / 8]? = some b :=
    ⟨_, List.getElem?_eq_getElem (by omega)⟩
  simp [Bitvec.codeSegment, found, bitAt_of_found found, bitOf, bne]

/-! ### The loops over push data -/

theorem set8Loop_spec (bits : Bitvec) (pc numbits : Nat) (fits : pc + numbits < 8 * bits.bytes.length) :
    ∃ bits', set8Loop bits pc numbits = .ok (bits', pc + 8 * (numbits / 8), numbits % 8) ∧
      bits'.bytes.length = bits.bytes.length ∧
      ∀ q, bitAt bits'.bytes q = (bitAt bits.bytes q || decide (pc ≤ q ∧ q < pc + 8 * (numbits / 8))) := by
  fun_induction set8Loop bits pc numbits with
  | case1 bits pc numbits inductionHypothesis =>
      obtain ⟨set, setting, sameLength, marks⟩ := set8_spec bits pc (by omega)
      obtain ⟨bits', looped, sameLength', marks'⟩ := inductionHypothesis set (by omega)
      refine ⟨bits', ?_, by omega, fun q => ?_⟩
      · simp only [setting, except_bind_ok, looped]
        congr 3 <;> omega
      · rw [marks', marks]
        exact or_decide_or (by omega)
  | case2 bits pc numbits short =>
      have below : numbits < 8 := by
        by_contra long
        exact short (numbits - 8) (by omega)
      refine ⟨bits, ?_, rfl, fun q => ?_⟩
      · rw [Nat.div_eq_of_lt below, Nat.mod_eq_of_lt below]
        rfl
      · simp [Nat.div_eq_of_lt below]

theorem setLoop_spec (numbits : Nat) (bits : Bitvec) (pc : Nat) (fits : pc + numbits ≤ 8 * bits.bytes.length) :
    ∃ bits', setLoop bits pc numbits = .ok (bits', pc + numbits) ∧
      bits'.bytes.length = bits.bytes.length ∧
      ∀ q, bitAt bits'.bytes q = (bitAt bits.bytes q || decide (pc ≤ q ∧ q < pc + numbits)) := by
  induction numbits generalizing bits pc with
  | zero => exact ⟨bits, rfl, rfl, fun q => by simp⟩
  | succ numbits inductionHypothesis =>
      obtain ⟨set, setting, sameLength, marks⟩ := set_spec bits pc (by omega)
      obtain ⟨bits', looped, sameLength', marks'⟩ := inductionHypothesis set (pc + 1) (by omega)
      refine ⟨bits', ?_, by omega, fun q => ?_⟩
      · simp only [setLoop, setting, except_bind_ok, looped]
        congr 2
        omega
      · rw [marks', marks]
        exact or_decide_or (by omega)

/-- One iteration of the walk over the code. -/
theorem bitmapStep_spec {code : List UInt8} {pc : Nat} (bits : Bitvec) (inside : pc < code.length)
    (fits : pc + 1 + immediateSize code[pc] < 8 * bits.bytes.length) :
    ∃ bits', bitmapStep code (pc, bits) = .ok (.next (pc + 1 + immediateSize code[pc], bits')) ∧
      bits'.bytes.length = bits.bytes.length ∧
      ∀ q, bitAt bits'.bytes q =
        (bitAt bits.bytes q || decide (pc + 1 ≤ q ∧ q < pc + 1 + immediateSize code[pc])) := by
  by_cases push : code[pc] ≥ PUSH1 ∧ code[pc] ≤ PUSH32
  · have width : immediateSize code[pc] = (code[pc] - PUSH1 + 1).toNat := if_pos push
    rw [width] at fits ⊢
    obtain ⟨data, dataBytes, sameLength, marks⟩ := set8Loop_spec bits (pc + 1) _ fits
    obtain ⟨bits', dataBits, sameLength', marks'⟩ := setLoop_spec ((code[pc] - PUSH1 + 1).toNat % 8)
      data (pc + 1 + 8 * ((code[pc] - PUSH1 + 1).toNat / 8)) (by omega)
    refine ⟨bits', ?_, by omega, fun q => ?_⟩
    · simp only [bitmapStep, List.getElem?_eq_getElem inside, if_pos push, dataBytes, except_bind_ok,
        dataBits]
      congr 3
      omega
    · rw [marks', marks]
      exact or_decide_or (by omega)
  · have width : immediateSize code[pc] = 0 := if_neg push
    rw [width]
    refine ⟨bits, ?_, rfl, fun q => ?_⟩
    · simp only [bitmapStep, List.getElem?_eq_getElem inside, if_neg push]
    · rw [Nat.add_zero, decide_eq_false (by omega : ¬(pc + 1 ≤ q ∧ q < pc + 1)), Bool.or_false]

/-! ### The walk over the code -/

/-- What the walk keeps on `(pc, bits)`. -/
structure Scanned (code : List UInt8) (state : Nat × Bitvec) : Prop where
  size : state.2.bytes.length = code.length / 8 + 1 + 4
  ahead : ∀ q, state.1 ≤ q → (InstructionStart code q ↔ q ∈ startsFrom code state.1)
  marks : ∀ q, bitAt state.2.bytes q = decide (q < state.1 ∧ ¬ InstructionStart code q)

theorem scanned_start (code : List UInt8) :
    Scanned code (0, ⟨List.replicate (code.length / 8 + 1 + 4) 0⟩) where
  size := List.length_replicate
  ahead _ _ := Iff.rfl
  marks q := by simp

theorem scanned_step {code : List UInt8} {pc : Nat} {bits : Bitvec} (scanned : Scanned code (pc, bits))
    (inside : pc < code.length) :
    ∃ next, bitmapStep code (pc, bits) = .ok (.next next) ∧ Scanned code next ∧
      code.length - next.1 < code.length - pc := by
  have fits : pc + 1 + immediateSize code[pc] < 8 * bits.bytes.length := by
    have := immediateSize_le code[pc]
    have := scanned.size
    simp only at this
    omega
  obtain ⟨bits', stepped, sameLength, marks⟩ := bitmapStep_spec bits inside fits
  have here := startsFrom_of_lt inside
  have startHere : InstructionStart code pc := (scanned.ahead pc (Nat.le_refl _)).mpr (by simp [here])
  have inData : ∀ q, pc < q → q < pc + 1 + immediateSize code[pc] → ¬ InstructionStart code q := by
    intro q after before start
    rw [scanned.ahead q (by omega), here] at start
    rcases List.mem_cons.mp start with rfl | later
    · omega
    · have := le_of_mem_startsFrom later
      omega
  refine ⟨_, stepped, ⟨by rw [sameLength]; exact scanned.size, fun q after => ?_, fun q => ?_⟩, by omega⟩
  · rw [scanned.ahead q (by simp only at after; omega), here, List.mem_cons]
    simp only at after
    exact ⟨fun member => member.resolve_left (by omega), Or.inr⟩
  · rw [marks, scanned.marks q, ← Bool.decide_or]
    apply decide_eq_decide.mpr
    constructor
    · rintro (⟨below, notStart⟩ | ⟨after, before⟩)
      · exact ⟨by omega, notStart⟩
      · exact ⟨before, inData q (by omega) before⟩
    · rintro ⟨before, notStart⟩
      by_cases below : q < pc
      · exact Or.inl ⟨below, notStart⟩
      · have other : q ≠ pc := fun same => notStart (same ▸ startHere)
        exact Or.inr ⟨by omega, before⟩

/-- `codeBitmap` never panics, and marks exactly the bytes that start no instruction. -/
theorem codeBitmap_spec (code : List UInt8) :
    ∃ bits, codeBitmap code = .ok bits ∧ bits.bytes.length = code.length / 8 + 1 + 4 ∧
      ∀ q < code.length, bitAt bits.bytes q = !decide (InstructionStart code q) := by
  obtain ⟨⟨pc, bits⟩, looped, scanned, stopped⟩ :=
    whileLoop_of_measure (fun state => decide (state.1 < code.length)) (bitmapStep code)
      (Scanned code) (fun state => code.length - state.1)
      (fun ⟨pc, bits⟩ scanned tested => scanned_step scanned (by simpa using tested))
      (scanned_start code) (show code.length - 0 < code.length + 1 by omega)
  refine ⟨bits, by simp only [codeBitmap, looped]; rfl, scanned.size, fun q inside => ?_⟩
  have past : code.length ≤ pc := by simpa using stopped
  rw [scanned.marks q, Bool.decide_and, decide_eq_true (by omega : q < pc), Bool.true_and, decide_not]

/-- A `PUSH32` at the end of the code: its data fills the bitmap's slack. -/
example : (codeBitmap [PUSH32]).map Bitvec.bytes = .ok [0x7F, 0xFF, 0xFF, 0xFF, 0x80] := by decide

theorem codeSegment_codeBitmap {code : List UInt8} {bits : Bitvec} (analyzed : codeBitmap code = .ok bits)
    {p : Nat} (inside : p < code.length) :
    bits.codeSegment p = .ok (decide (InstructionStart code p)) := by
  obtain ⟨bits', analyzed', size, marks⟩ := codeBitmap_spec code
  rw [analyzed, Except.ok.injEq] at analyzed'
  subst analyzed'
  rw [codeSegment_eq _ p (by omega), marks p inside, Bool.not_not]

/-! ### Jump destinations -/

/-- The caches hold the analyses of the code they stand for. -/
structure CachesSound (codeOf : Hash → List UInt8) (c : Contract) : Prop where
  code : c.codeHash ≠ 0 → c.code = codeOf c.codeHash
  shared : ∀ hash analysis, c.jumpdests.lookup hash = some analysis →
    codeBitmap (codeOf hash) = .ok analysis
  own : ∀ analysis, c.analysis = some analysis → codeBitmap c.code = .ok analysis

section Caches

variable {codeOf : Hash → List UInt8}

/-- A new frame keeps the caches sound when its caller's are and its hash is that of its code. -/
theorem cachesSound_new {parent : Option Contract} {code : List UInt8} {codeHash : Hash}
    (inherited : ∀ p ∈ parent, CachesSound codeOf p) (hashed : codeHash ≠ 0 → code = codeOf codeHash) :
    CachesSound codeOf (Contract.new parent code codeHash) := by
  refine ⟨hashed, fun hash analysis cached => ?_, fun analysis none => nomatch none⟩
  cases parent with
  | none => simp [Contract.new] at cached
  | some parent => exact (inherited parent rfl).shared hash analysis cached

theorem cachesSound_insert {c : Contract} (sound : CachesSound codeOf c) (hashed : c.codeHash ≠ 0)
    {bits : Bitvec} (analyzed : codeBitmap c.code = .ok bits) :
    CachesSound codeOf { c with jumpdests := c.jumpdests.insert c.codeHash bits } := by
  refine ⟨sound.code, fun hash analysis cached => ?_, sound.own⟩
  by_cases same : hash = c.codeHash
  · subst same
    rw [AList.lookup_insert, Option.some.injEq] at cached
    rw [← sound.code hashed, ← cached]
    exact analyzed
  · rw [AList.lookup_insert_ne same] at cached
    exact sound.shared hash analysis cached

/-- A destination of 2^62 or more is rejected before the code is looked at. -/
theorem validJumpdest_of_far (c : Contract) {dest : Nat} (far : 2 ^ 62 ≤ dest) :
    c.validJumpdest dest = .ok (false, c) := by
  have wide : dest.size ≥ 63 := Nat.lt_size.mpr far
  simp [Contract.validJumpdest, wide]

theorem validJumpdest_spec {c : Contract} (sound : CachesSound codeOf c) (dest : Nat) :
    ∃ c', c.validJumpdest dest = .ok (decide (dest < 2 ^ 62 ∧ dest < c.code.length ∧
        c.code[dest]? = some JUMPDEST ∧ InstructionStart c.code dest), c') ∧
      CachesSound codeOf c' ∧ c'.code = c.code ∧ c'.codeHash = c.codeHash := by
  by_cases far : 2 ^ 62 ≤ dest
  · refine ⟨c, ?_, sound, rfl, rfl⟩
    rw [validJumpdest_of_far c far, decide_eq_false (fun accepted => by omega)]
  have narrow : ¬ dest.size ≥ 63 := fun wide => far (Nat.lt_size.mp wide)
  have low : dest % 2 ^ 64 = dest := Nat.mod_eq_of_lt (by omega)
  unfold Contract.validJumpdest
  simp only [low]
  by_cases outside : dest ≥ c.code.length
  · refine ⟨c, ?_, sound, rfl, rfl⟩
    rw [if_pos (Or.inr outside), decide_eq_false (fun accepted => by omega)]
  rw [if_neg (by omega)]
  by_cases other : c.code[dest]? ≠ some JUMPDEST
  · refine ⟨c, ?_, sound, rfl, rfl⟩
    rw [if_pos other, decide_eq_false (fun accepted => other accepted.2.2.1)]
  rw [if_neg other]
  have accepted : decide (dest < 2 ^ 62 ∧ dest < c.code.length ∧ c.code[dest]? = some JUMPDEST ∧
      InstructionStart c.code dest) = decide (InstructionStart c.code dest) :=
    decide_eq_decide.mpr ⟨fun accepted => accepted.2.2.2,
      fun start => ⟨by omega, by omega, not_not.mp other, start⟩⟩
  have inside : dest < c.code.length := by omega
  rw [accepted]
  by_cases hashed : c.codeHash ≠ 0
  · rw [if_pos hashed]
    cases cached : c.jumpdests.lookup c.codeHash with
    | some analysis =>
        have analyzed := sound.shared _ _ cached
        rw [← sound.code hashed] at analyzed
        exact ⟨c, by simp [codeSegment_codeBitmap analyzed inside, Except.map], sound, rfl, rfl⟩
    | none =>
        obtain ⟨bits, analyzed, -⟩ := codeBitmap_spec c.code
        exact ⟨{ c with jumpdests := c.jumpdests.insert c.codeHash bits },
          by simp [analyzed, codeSegment_codeBitmap analyzed inside, Except.map],
          cachesSound_insert sound hashed analyzed, rfl, rfl⟩
  · rw [if_neg hashed]
    cases cached : c.analysis with
    | some analysis =>
        have analyzed := sound.own _ cached
        exact ⟨c, by simp [codeSegment_codeBitmap analyzed inside, Except.map], sound, rfl, rfl⟩
    | none =>
        obtain ⟨bits, analyzed, -⟩ := codeBitmap_spec c.code
        refine ⟨{ c with analysis := some bits },
          by simp [analyzed, codeSegment_codeBitmap analyzed inside, Except.map],
          ⟨sound.code, sound.shared, fun analysis stored => ?_⟩, rfl, rfl⟩
        obtain rfl : bits = analysis := Option.some.inj stored
        exact analyzed

end Caches

theorem jumpdest_analysis (codeOf : Hash → List UInt8) (code : List UInt8) :
    (∃ bits, codeBitmap code = .ok bits ∧
      ∀ p < code.length, bits.codeSegment p = .ok (decide (InstructionStart code p))) ∧
    (code.length ≤ 2 ^ 62 → ∀ c : Contract, c.code = code → CachesSound codeOf c → ∀ dest,
      ∃ c', c.validJumpdest dest = .ok (decide (dest < code.length ∧
        code[dest]? = some JUMPDEST ∧ InstructionStart code dest), c') ∧ CachesSound codeOf c') := by
  obtain ⟨bits, analyzed, -⟩ := codeBitmap_spec code
  refine ⟨⟨bits, analyzed, fun p inside => codeSegment_codeBitmap analyzed inside⟩, ?_⟩
  rintro bounded c rfl sound dest
  obtain ⟨c', jumped, sound', -⟩ := validJumpdest_spec sound dest
  -- no Go slice holds 2^62 bytes, so the bound on the destination follows from the code's
  have near : decide (dest < 2 ^ 62 ∧ dest < c.code.length ∧ c.code[dest]? = some JUMPDEST ∧
      InstructionStart c.code dest) = decide (dest < c.code.length ∧
        c.code[dest]? = some JUMPDEST ∧ InstructionStart c.code dest) :=
    decide_eq_decide.mpr ⟨fun accepted => accepted.2, fun accepted => ⟨by omega, accepted⟩⟩
  exact ⟨c', near ▸ jumped, sound'⟩

/-- `PUSH1 JUMPDEST JUMPDEST`: the first `JUMPDEST` is data, the second an instruction. -/
def pushedCode : List UInt8 := [PUSH1, JUMPDEST, JUMPDEST]

theorem startsFrom_pushedCode : startsFrom pushedCode 0 = [0, 2] := by
  rw [startsFrom_of_lt (by decide), startsFrom_of_lt (by decide)]
  simp [startsFrom, pushedCode, immediateSize, PUSH1, PUSH32, JUMPDEST]

theorem jumpdest_analysis_pushed :
    CachesSound (fun _ => pushedCode) (Contract.new none pushedCode 0) ∧
      (∃ c', (Contract.new none pushedCode 0).validJumpdest 1 = .ok (false, c')) ∧
      ∃ c', (Contract.new none pushedCode 0).validJumpdest 2 = .ok (true, c') := by
  have sound : CachesSound (fun _ => pushedCode) (Contract.new none pushedCode 0) :=
    cachesSound_new (fun _ none => nomatch none) (fun _ => rfl)
  have analysis := (jumpdest_analysis (fun _ => pushedCode) pushedCode).2 (by decide) _ rfl sound
  obtain ⟨inData, rejected, -⟩ := analysis 1
  obtain ⟨atStart, accepted, -⟩ := analysis 2
  simp only [InstructionStart, startsFrom_pushedCode] at rejected accepted
  exact ⟨sound, ⟨inData, by simpa [pushedCode] using rejected⟩, ⟨atStart, by simpa [pushedCode] using accepted⟩⟩

end Tangerine.Proof.JumpDest
