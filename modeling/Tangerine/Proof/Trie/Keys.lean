import Tangerine.Trie.Encoding
import Mathlib.Data.List.Basic

/-! The keys of the trie, and the inverses among the encodings of `trie/encoding.go`. -/

namespace Tangerine.Proof.TrieKeys

open Tangerine.Common Tangerine.Trie

/-- Nibbles below the terminator, as the digits of a HEX key are. -/
def Digits (ds : List Nibble) : Prop := ∀ d ∈ ds, d ≠ terminator

instance : DecidablePred Digits := fun ds => inferInstanceAs (Decidable (∀ d ∈ ds, d ≠ terminator))

/-- The HEX key of a value: digits, then the terminator. -/
def Terminated (key : List Nibble) : Prop := ∃ ds, Digits ds ∧ key = ds ++ [terminator]

section Digits

@[simp] theorem digits_nil : Digits [] := by simp [Digits]

@[simp] theorem digits_cons {d : Nibble} {ds : List Nibble} :
    Digits (d :: ds) ↔ d ≠ terminator ∧ Digits ds := by simp [Digits]

@[simp] theorem digits_append {ds ds' : List Nibble} : Digits (ds ++ ds') ↔ Digits ds ∧ Digits ds' := by
  simp only [Digits, List.mem_append]
  exact ⟨fun all => ⟨fun d mem => all d (.inl mem), fun d mem => all d (.inr mem)⟩,
    fun ⟨left, right⟩ d mem => mem.elim (left d) (right d)⟩

theorem Digits.take {ds : List Nibble} (digits : Digits ds) (m : Nat) : Digits (ds.take m) :=
  fun d mem => digits d (List.mem_of_mem_take mem)

theorem Digits.drop {ds : List Nibble} (digits : Digits ds) (m : Nat) : Digits (ds.drop m) :=
  fun d mem => digits d (List.mem_of_mem_drop mem)

end Digits

section Terminated

theorem Terminated.ne_nil {key : List Nibble} (terminated : Terminated key) : key ≠ [] := by
  obtain ⟨ds, -, rfl⟩ := terminated
  simp

theorem terminated_terminator : Terminated [terminator] := ⟨[], digits_nil, rfl⟩

/-- After a digit, what is left of a terminated key is terminated. -/
theorem Terminated.tail {d : Nibble} {rest : List Nibble} (terminated : Terminated (d :: rest))
    (digit : d ≠ terminator) : Terminated rest := by
  obtain ⟨ds, digits, eq⟩ := terminated
  cases ds with
  | nil => exact absurd (List.cons.inj eq).1 digit
  | cons d' ds =>
    obtain ⟨-, rfl⟩ := List.cons.inj eq
    exact ⟨ds, (digits_cons.mp digits).2, rfl⟩

/-- The terminator ends a terminated key. -/
theorem Terminated.eq_nil_of_terminator {rest : List Nibble}
    (terminated : Terminated (terminator :: rest)) : rest = [] := by
  obtain ⟨ds, digits, eq⟩ := terminated
  cases ds with
  | nil => exact (List.cons.inj eq).2
  | cons d ds =>
    obtain ⟨same, -⟩ := List.cons.inj eq
    exact absurd same.symm (digits_cons.mp digits).1

/-- What follows a prefix of digits in a terminated key is terminated. -/
theorem Terminated.drop_digits {pre rest : List Nibble} (terminated : Terminated (pre ++ rest))
    (digits : Digits pre) : Terminated rest := by
  induction pre with
  | nil => exact terminated
  | cons d pre inductionHypothesis =>
    obtain ⟨digit, digits⟩ := digits_cons.mp digits
    exact inductionHypothesis (terminated.tail digit) digits

/-- Digits in front of a terminated key leave it terminated. -/
theorem Terminated.append_digits {pre key : List Nibble} (terminated : Terminated key)
    (digits : Digits pre) : Terminated (pre ++ key) := by
  obtain ⟨ds, digitsKey, rfl⟩ := terminated
  exact ⟨pre ++ ds, digits_append.mpr ⟨digits, digitsKey⟩, by simp⟩

theorem Terminated.last_mem {key : List Nibble} (terminated : Terminated key) : terminator ∈ key := by
  obtain ⟨ds, -, rfl⟩ := terminated
  simp

/-- Every nibble of a terminated key before its last is a digit. -/
theorem Terminated.digits_take {key : List Nibble} (terminated : Terminated key) {m : Nat}
    (short : m < key.length) : Digits (key.take m) := by
  obtain ⟨ds, digits, rfl⟩ := terminated
  have within : m ≤ ds.length := by simp at short; omega
  rw [List.take_append_of_le_length within]
  exact digits.take m

/-- A terminated key is no prefix of digits. -/
theorem Terminated.not_prefix_digits {key ds : List Nibble} (terminated : Terminated key)
    (digits : Digits ds) : ¬ key <+: ds :=
  fun pre => digits terminator (pre.subset terminated.last_mem) rfl

/-- No terminated key is a proper prefix of another. -/
theorem Terminated.eq_of_isPrefix {key key' : List Nibble} (terminated : Terminated key)
    (terminated' : Terminated key') (pre : key <+: key') : key = key' := by
  obtain ⟨ds, digits, rfl⟩ := terminated
  obtain ⟨rest, eq⟩ := pre
  cases rest with
  | nil => simpa using eq
  | cons d rest =>
    rw [List.append_assoc, List.singleton_append] at eq
    rw [← eq] at terminated'
    have := (terminated'.drop_digits digits).eq_nil_of_terminator
    simp at this

end Terminated

section PrefixLen

theorem prefixLen_le_left (a b : List Nibble) : prefixLen a b ≤ a.length := by
  induction a generalizing b with
  | nil => simp [prefixLen]
  | cons x a inductionHypothesis =>
    cases b with
    | nil => simp [prefixLen]
    | cons y b =>
      by_cases same : x = y
      · simp [prefixLen, same, inductionHypothesis b]
      · simp [prefixLen, same]

theorem prefixLen_le_right (a b : List Nibble) : prefixLen a b ≤ b.length := by
  induction a generalizing b with
  | nil => simp [prefixLen]
  | cons x a inductionHypothesis =>
    cases b with
    | nil => simp [prefixLen]
    | cons y b =>
      by_cases same : x = y
      · simp [prefixLen, same, inductionHypothesis b]
      · simp [prefixLen, same]

/-- The two keys agree up to `prefixLen`. -/
theorem take_prefixLen (a b : List Nibble) : a.take (prefixLen a b) = b.take (prefixLen a b) := by
  induction a generalizing b with
  | nil => simp [prefixLen]
  | cons x a inductionHypothesis =>
    cases b with
    | nil => simp [prefixLen]
    | cons y b =>
      by_cases same : x = y
      · subst same
        simp [prefixLen, inductionHypothesis b]
      · simp [prefixLen, same]

/-- The whole of `b` is common exactly when it is a prefix of `a`. -/
theorem prefixLen_eq_length_iff (a b : List Nibble) : prefixLen a b = b.length ↔ b <+: a := by
  induction a generalizing b with
  | nil => cases b <;> simp [prefixLen]
  | cons x a inductionHypothesis =>
    cases b with
    | nil => simp [prefixLen]
    | cons y b =>
      by_cases same : x = y
      · subst same
        simp [prefixLen, inductionHypothesis b]
      · have differ : ¬ (y :: b) <+: (x :: a) := fun pre => same (List.cons_prefix_cons.mp pre).1.symm
        simp [prefixLen, same, differ]

/-- Where both keys go on past `prefixLen`, they part there. -/
theorem getElem_prefixLen_ne (a b : List Nibble) (left : prefixLen a b < a.length)
    (right : prefixLen a b < b.length) : a[prefixLen a b] ≠ b[prefixLen a b] := by
  induction a generalizing b with
  | nil => simp at left
  | cons x a inductionHypothesis =>
    cases b with
    | nil => simp at right
    | cons y b =>
      by_cases same : x = y
      · subst same
        simp only [prefixLen, if_pos, List.length_cons, Nat.add_lt_add_iff_right,
          List.getElem_cons_succ] at left right ⊢
        exact inductionHypothesis b left right
      · simp [prefixLen, same]

end PrefixLen

section Bytes

set_option maxRecDepth 20000 in
/-- A byte is its two nibbles put back together. -/
theorem byte_of_nibbles (b : UInt8) :
    (UInt8.ofNat (Fin.ofNat 17 (b.toNat / 16)).val <<< 4 |||
      UInt8.ofNat (Fin.ofNat 17 (b.toNat % 16)).val) = b := by
  have every : ∀ n : Fin 256,
      (UInt8.ofNat (Fin.ofNat 17 ((UInt8.ofNat n.val).toNat / 16)).val <<< 4 |||
        UInt8.ofNat (Fin.ofNat 17 ((UInt8.ofNat n.val).toNat % 16)).val) = UInt8.ofNat n.val := by
    decide
  simpa using every ⟨b.toNat, b.toNat_lt⟩

/-- Two digits packed into a byte are its two nibbles. -/
theorem nibbles_of_byte : ∀ high low : Fin 16,
    (UInt8.ofNat high.val <<< 4 ||| UInt8.ofNat low.val).toNat / 16 = high.val ∧
      (UInt8.ofNat high.val <<< 4 ||| UInt8.ofNat low.val).toNat % 16 = low.val := by
  decide

/-- The nibbles of the bytes of a key, without the terminator. -/
theorem keybytesToHex_eq (str : Bytes) :
    keybytesToHex str =
      str.flatMap (fun b => [Fin.ofNat 17 (b.toNat / 16), Fin.ofNat 17 (b.toNat % 16)]) ++
        [terminator] := rfl

theorem digits_flatMap (str : Bytes) :
    Digits (str.flatMap fun b => [Fin.ofNat 17 (b.toNat / 16), Fin.ofNat 17 (b.toNat % 16)]) := by
  induction str with
  | nil => simp
  | cons b str inductionHypothesis =>
    have high : b.toNat / 16 < 16 := by have := b.toNat_lt; omega
    have low : b.toNat % 16 < 16 := Nat.mod_lt _ (by omega)
    simp only [List.flatMap_cons, List.cons_append, List.nil_append, digits_cons]
    refine ⟨?_, ?_, inductionHypothesis⟩
    all_goals
      intro eq
      have := congrArg Fin.val eq
      simp [terminator] at this
      omega

theorem terminated_keybytesToHex (str : Bytes) : Terminated (keybytesToHex str) :=
  ⟨_, digits_flatMap str, keybytesToHex_eq str⟩

theorem decodeNibbles_flatMap (str : Bytes) :
    decodeNibbles (str.flatMap fun b => [Fin.ofNat 17 (b.toNat / 16), Fin.ofNat 17 (b.toNat % 16)]) =
      str := by
  induction str with
  | nil => rfl
  | cons b str inductionHypothesis =>
    simp only [List.flatMap_cons, List.cons_append, List.nil_append, decodeNibbles,
      inductionHypothesis, byte_of_nibbles]

/-- Different keys have different HEX keys: the nibbles of the bytes pack back into them. -/
theorem keybytesToHex_injective : Function.Injective keybytesToHex := by
  intro str str' same
  rw [keybytesToHex_eq, keybytesToHex_eq, List.append_cancel_right_eq] at same
  rw [← decodeNibbles_flatMap str, same, decodeNibbles_flatMap]

end Bytes

section RoundTrips

/-- The nibbles of a byte packed from two digits are the two digits. -/
theorem nibbles_pack {high low : Nibble} (highDigit : high ≠ terminator) (lowDigit : low ≠ terminator) :
    Fin.ofNat 17 ((UInt8.ofNat high.val <<< 4 ||| UInt8.ofNat low.val).toNat / 16) = high ∧
      Fin.ofNat 17 ((UInt8.ofNat high.val <<< 4 ||| UInt8.ofNat low.val).toNat % 16) = low := by
  have highLt : high.val < 16 := by
    have := high.isLt
    have : high.val ≠ 16 := fun eq => highDigit (Fin.ext eq)
    omega
  have lowLt : low.val < 16 := by
    have := low.isLt
    have : low.val ≠ 16 := fun eq => lowDigit (Fin.ext eq)
    omega
  obtain ⟨highEq, lowEq⟩ := nibbles_of_byte ⟨high.val, highLt⟩ ⟨low.val, lowLt⟩
  simp only at highEq lowEq
  constructor
  · apply Fin.ext
    rw [Fin.val_ofNat, highEq]
    omega
  · apply Fin.ext
    rw [Fin.val_ofNat, lowEq]
    omega

theorem flatMap_decodeNibbles : ∀ (ds : List Nibble), Digits ds → ds.length % 2 = 0 →
    (decodeNibbles ds).flatMap (fun b => [Fin.ofNat 17 (b.toNat / 16), Fin.ofNat 17 (b.toNat % 16)]) = ds
  | [], _, _ => rfl
  | [_], _, odd => by simp at odd
  | high :: low :: rest, digits, even => by
    obtain ⟨highDigit, lowDigit, digits⟩ : high ≠ terminator ∧ low ≠ terminator ∧ Digits rest := by
      simpa using digits
    have restEven : rest.length % 2 = 0 := by simp at even; omega
    obtain ⟨highEq, lowEq⟩ := nibbles_pack highDigit lowDigit
    simp only [decodeNibbles, List.flatMap_cons, highEq, lowEq,
      flatMap_decodeNibbles rest digits restEven, List.cons_append, List.nil_append]

theorem keybytesToHex_cons_decodeNibbles (b : UInt8) {ds : List Nibble} (digits : Digits ds)
    (even : ds.length % 2 = 0) :
    keybytesToHex (b :: decodeNibbles ds) =
      Fin.ofNat 17 (b.toNat / 16) :: Fin.ofNat 17 (b.toNat % 16) :: (ds ++ [terminator]) := by
  rw [keybytesToHex_eq, List.flatMap_cons, flatMap_decodeNibbles ds digits even]
  rfl

/-- The flag byte of `hexToCompact` read back as nibbles. -/
theorem flag_nibbles : ∀ (term : Bool) (d : Fin 16),
    ((if term then (1 : UInt8) else 0) <<< 5).toNat / 16 = (if term then 2 else 0) ∧
      ((if term then (1 : UInt8) else 0) <<< 5).toNat % 16 = 0 ∧
      ((if term then (1 : UInt8) else 0) <<< 5 ||| (1 : UInt8) <<< 4 ||| UInt8.ofNat d.val).toNat / 16 =
        (if term then 3 else 1) ∧
      ((if term then (1 : UInt8) else 0) <<< 5 ||| (1 : UInt8) <<< 4 ||| UInt8.ofNat d.val).toNat % 16 =
        d.val := by
  decide

theorem hasTerm_of_digits {ds : List Nibble} (digits : Digits ds) (term : Bool) :
    hasTerm (if term then ds ++ [terminator] else ds) = term := by
  cases term with
  | true => simp [hasTerm]
  | false =>
    simp only [hasTerm, Bool.false_eq_true, if_false, beq_eq_false_iff_ne, ne_eq]
    intro last
    exact digits terminator (List.mem_of_getLast? last) rfl

/-- `hexToCompact` of digits, with or without the terminator. -/
theorem hexToCompact_of_digits {ds : List Nibble} (digits : Digits ds) (term : Bool) :
    hexToCompact (if term then ds ++ [terminator] else ds) =
      if ds.length % 2 = 1 then
        ((if term then (1 : UInt8) else 0) <<< 5 ||| (1 : UInt8) <<< 4 ||| UInt8.ofNat (ds.headD 0).val) ::
          decodeNibbles ds.tail
      else ((if term then (1 : UInt8) else 0) <<< 5) :: decodeNibbles ds := by
  have marked := hasTerm_of_digits digits term
  cases term with
  | true =>
    simp only [if_true] at marked ⊢
    simp only [hexToCompact, marked, if_true, List.dropLast_concat, Nat.and_one_is_mod]
  | false =>
    simp only [Bool.false_eq_true, if_false] at marked ⊢
    simp only [hexToCompact, marked, Bool.false_eq_true, if_false, Nat.and_one_is_mod]

/-- `compactToHex` of bytes whose nibbles are two flag nibbles, then digits and the terminator. -/
theorem compactToHex_of_keybytesToHex {c : Bytes} {high low : Nibble} {rest : List Nibble}
    (nonempty : c ≠ []) (read : keybytesToHex c = high :: low :: (rest ++ [terminator])) :
    compactToHex c =
      (if high.val < 2 then high :: low :: rest else high :: low :: (rest ++ [terminator])).drop
        (2 - high.val % 2) := by
  have stripped : (high :: low :: (rest ++ [terminator])).dropLast = high :: low :: rest := by
    rw [← List.cons_append, ← List.cons_append, List.dropLast_concat]
  by_cases small : high.val < 2
  · simp [compactToHex, nonempty, read, small, stripped, Nat.and_one_is_mod]
  · simp [compactToHex, nonempty, read, small, Nat.and_one_is_mod]

theorem compactToHex_hexToCompact_of_digits {ds : List Nibble} (digits : Digits ds) (term : Bool) :
    compactToHex (hexToCompact (if term then ds ++ [terminator] else ds)) =
      if term then ds ++ [terminator] else ds := by
  rw [hexToCompact_of_digits digits term]
  rcases Nat.mod_two_eq_zero_or_one ds.length with even | odd
  · obtain ⟨high, low, -, -⟩ := flag_nibbles term 0
    rw [if_neg (by omega), compactToHex_of_keybytesToHex (List.cons_ne_nil _ _)
      (keybytesToHex_cons_decodeNibbles _ digits even)]
    cases term <;> simp_all
  · obtain ⟨d, ds', rfl⟩ : ∃ d ds', ds = d :: ds' := by
      cases ds with
      | nil => simp at odd
      | cons d ds' => exact ⟨d, ds', rfl⟩
    obtain ⟨digit, digits'⟩ := digits_cons.mp digits
    have even' : ds'.length % 2 = 0 := by simp at odd; omega
    have digitLt : d.val < 16 := by
      have := d.isLt
      have : d.val ≠ 16 := fun eq => digit (Fin.ext eq)
      omega
    obtain ⟨-, -, high, low⟩ := flag_nibbles term ⟨d.val, digitLt⟩
    rw [if_pos odd, List.headD_cons, List.tail_cons, compactToHex_of_keybytesToHex (List.cons_ne_nil _ _)
      (keybytesToHex_cons_decodeNibbles _ digits' even')]
    have lowEq : (Fin.ofNat 17 (((if term then (1 : UInt8) else 0) <<< 5 ||| (1 : UInt8) <<< 4 |||
        UInt8.ofNat d.val).toNat % 16)) = d := by
      apply Fin.ext
      simp only at low
      rw [Fin.val_ofNat, low]
      omega
    rw [lowEq]
    cases term <;> simp_all

/-- `compactToHex` inverts `hexToCompact` on every HEX key the package encodes. -/
theorem compactToHex_hexToCompact {hex : List Nibble} (keyed : Digits hex ∨ Terminated hex) :
    compactToHex (hexToCompact hex) = hex := by
  rcases keyed with digits | ⟨ds, digits, rfl⟩
  · simpa using compactToHex_hexToCompact_of_digits digits false
  · simpa using compactToHex_hexToCompact_of_digits digits true

theorem compactToHex_hexToCompact_odd_terminated :
    (Digits [1, 2, 3, terminator] ∨ Terminated [1, 2, 3, terminator]) ∧
      compactToHex (hexToCompact [1, 2, 3, terminator]) = [1, 2, 3, terminator] :=
  have keyed : Digits [1, 2, 3, terminator] ∨ Terminated [1, 2, 3, terminator] :=
    .inr ⟨[1, 2, 3], by decide, rfl⟩
  ⟨keyed, compactToHex_hexToCompact keyed⟩

end RoundTrips

end Tangerine.Proof.TrieKeys
