import Mathlib.Algebra.Group.Nat.Defs
import Mathlib.Data.List.Basic
import Mathlib.Data.Option.Basic
import KeyedCoding.Text.Base64

/-!
Base64 is exact: bytes have one encoding, which is their bits in groups of six, and what is decoded
is the text whose encoding it is.
-/

namespace KeyedCoding.Text.Base64

/-- The bits of a number of some width, the highest one first. -/
def bits : Nat → Nat → List Bool
  | 0, _ => []
  | width + 1, value => bits width (value / 2) ++ [value % 2 == 1]

/-- The bits of bytes. -/
def bitsOf (bytes : List UInt8) : List Bool := bytes.flatMap fun byte => bits 8 byte.toNat

/--
How bytes are put into groups of six bits: the bits of the groups are those of the bytes and zeros
behind them, and with the signs that fill up there are four characters for every three bytes.
-/
structure Groups (bytes : List UInt8) (values : List Nat) (pad : Nat) : Prop where
  small : ∀ value ∈ values, value < 64
  bits : values.flatMap (bits 6) = bitsOf bytes ++ List.replicate (2 * pad) false
  filled : pad < 3
  length : 3 * (values.length + pad) = 4 * (bytes.length + pad)

/-- The standard encoding of bytes: the characters of the groups, and the signs that fill up. -/
def Written (bytes : List UInt8) (chars : List Char) : Prop :=
  ∃ values pad, Groups bytes values pad ∧ chars = values.map digit ++ List.replicate pad '='

section Bits

variable {width value : Nat}

/-- A number has as many bits as it is wide. -/
theorem bits_length (width value : Nat) : (bits width value).length = width := by
  -- Each step of the induction writes one bit behind the others.
  induction width generalizing value with
  | zero => rfl
  | succ width ih => rw [bits, List.length_append, ih, List.length_singleton]

/-- The bits of zero are all unset. -/
theorem bits_zero (width : Nat) : bits width 0 = List.replicate width false := by
  -- Half of zero is zero, and its last bit is unset.
  induction width with
  | zero => rfl
  | succ width ih => rw [bits, Nat.zero_div, ih, List.replicate_succ']; rfl

/-- The bits of a number are those of its high part and behind them those of its low part. -/
theorem bits_append (high low value : Nat) :
    bits (high + low) value = bits high (value / 2 ^ low) ++ bits low (value % 2 ^ low) := by
  -- The lowest bit is split off on both sides.
  induction low generalizing value with
  | zero => simp [bits]
  | succ low ih =>
    have above : value / 2 / 2 ^ low = value / 2 ^ (low + 1) := by
      rw [Nat.div_div_eq_div_mul, Nat.pow_succ']
    have below : value / 2 % 2 ^ low = value % 2 ^ (low + 1) / 2 := by
      rw [Nat.pow_succ', Nat.mod_mul_right_div_self]
    have lowest : value % 2 = value % 2 ^ (low + 1) % 2 := by
      rw [Nat.mod_mod_of_dvd _ (Nat.pow_succ' ▸ Nat.dvd_mul_right 2 (2 ^ low))]
    rw [← Nat.add_assoc, bits, ih, above, below, lowest, List.append_assoc, bits]

/-- The bits of a number that has a high part and a low part. -/
theorem bits_glue {high low : Nat} (upper : Nat) {lower : Nat} (small : lower < 2 ^ low) :
    bits (high + low) (upper * 2 ^ low + lower) = bits high upper ++ bits low lower := by
  -- Division drops the low part, and the remainder drops the high one.
  have above : (upper * 2 ^ low + lower) / 2 ^ low = upper := by
    rw [Nat.mul_comm, Nat.mul_add_div (Nat.two_pow_pos low), Nat.div_eq_of_lt small, Nat.add_zero]
  have below : (upper * 2 ^ low + lower) % 2 ^ low = lower := by
    rw [Nat.mul_comm, Nat.mul_add_mod, Nat.mod_eq_of_lt small]
  rw [bits_append, above, below]

/-- Numbers of the same width with the same bits are the same. -/
theorem bits_injective {other : Nat} (small : value < 2 ^ width) (alike : other < 2 ^ width)
    (same : bits width value = bits width other) : value = other := by
  induction width generalizing value other with
  | zero => omega
  | succ width ih =>
    rw [bits, bits] at same
    obtain ⟨upper, lowest⟩ := List.append_inj' same rfl
    have halves := ih (by omega) (by omega) upper
    -- The halves agree, and so do the lowest bits.
    have odd : (value % 2 == 1) = (other % 2 == 1) := (List.cons.inj lowest).1
    have parity : value % 2 = 1 ↔ other % 2 = 1 := by
      rw [← beq_iff_eq, odd, beq_iff_eq]
    omega

/-- Groups of six bits are determined by all their bits together. -/
theorem groups_injective {values others : List Nat} (small : ∀ value ∈ values, value < 64)
    (alike : ∀ other ∈ others, other < 64)
    (same : values.flatMap (bits 6) = others.flatMap (bits 6)) : values = others := by
  have nonempty {value : Nat} {rest : List Bool} : bits 6 value ++ rest ≠ [] := by
    intro empty
    have lengths := congrArg List.length (List.append_eq_nil_iff.mp empty).1
    rw [bits_length] at lengths
    cases lengths
  -- The first six bits are those of the first groups.
  induction values generalizing others with
  | nil =>
    cases others with
    | nil => rfl
    | cons other rest => exact absurd same.symm nonempty
  | cons value rest ih =>
    cases others with
    | nil => exact absurd same nonempty
    | cons other more =>
      rw [List.forall_mem_cons] at small alike
      rw [List.flatMap_cons, List.flatMap_cons] at same
      obtain ⟨first, behind⟩ :=
        List.append_inj same ((bits_length 6 value).trans (bits_length 6 other).symm)
      rw [bits_injective small.1 alike.1 first, ih small.2 alike.2 behind]

end Bits

section Digits

variable {value : Nat} {c : Char}

/-- The character of a group has the group as its value. -/
theorem digitValue?_digit (small : value < 64) : digitValue? (digit value) = some value := by
  -- There are sixty-four groups.
  revert value
  decide +kernel

/-- The sign that fills up is no character of a group. -/
theorem digitValue?_sign : digitValue? '=' = none := by decide

/-- The character of a group is not the sign. -/
theorem digit_ne_sign (small : value < 64) : digit value ≠ '=' := by
  -- The sign has no value, but the character of a group has one.
  intro same
  have known := digitValue?_digit small
  rw [same, digitValue?_sign] at known
  cases known

/-- A character with a value is the character of that group. -/
theorem digit_of_digitValue? (known : digitValue? c = some value) :
    value < 64 ∧ digit value = c := by
  have table : ∀ n < 128, ∀ value ∈ digitValue? (Char.ofNat n),
      value < 64 ∧ digit value = Char.ofNat n := by
    decide +kernel
  -- Only characters of the first half of a byte have a value.
  have ascii : c.toNat < 128 := by
    rw [digitValue?] at known
    simp only [Char.le_def, UInt32.le_iff_toNat_le, Char.toNat_val] at known
    have plus : c = '+' → c.toNat = 43 := by rintro rfl; rfl
    have slash : c = '/' → c.toNat = 47 := by rintro rfl; rfl
    grind
  have found := table c.toNat ascii value
  rw [Char.ofNat_toNat] at found
  exact found known

end Digits

section Groups

variable {bytes more : List UInt8} {values : List Nat} {pad : Nat} {chars left right : List Char}

/-- The bits of three bytes are those of four groups. -/
theorem bits_triple {a b c : Nat} (middle : b < 256) (last : c < 256) :
    [a / 4, a % 4 * 16 + b / 16, b % 16 * 4 + c / 64, c % 64].flatMap (bits 6) =
      bits 8 a ++ bits 8 b ++ bits 8 c := by
  have second := @bits_glue 2 4 (a % 4) (b / 16) (by omega)
  have third := @bits_glue 4 2 (b % 16) (c / 64) (by omega)
  -- Every byte is cut where a group ends.
  have first := bits_append 6 2 a
  have between := bits_append 4 4 b
  have behind := bits_append 2 6 c
  simp only [List.flatMap_cons, List.flatMap_nil, List.append_nil, Nat.reducePow,
    Nat.reduceAdd] at *
  rw [first, between, behind, second, third]
  simp only [List.append_assoc]

/-- Bytes have eight bits each. -/
theorem bitsOf_length (bytes : List UInt8) : (bitsOf bytes).length = 8 * bytes.length := by
  -- Every byte adds eight bits.
  induction bytes with
  | nil => rfl
  | cons byte rest ih =>
    rw [bitsOf, List.flatMap_cons, List.length_append, bits_length, ← bitsOf, ih, List.length_cons]
    omega

/-- The bits behind those of the last byte are zero. -/
theorem Groups.zeros (groups : Groups bytes values pad) :
    (values.flatMap (Base64.bits 6)).drop (6 * values.length - 2 * pad) =
      List.replicate (2 * pad) false := by
  -- Everything before the zeros is as long as the bits of the bytes.
  have lengths := groups.length
  rw [groups.bits, List.drop_left' (by rw [bitsOf_length]; omega)]

/-- Every character is one of the alphabet, or fills up. -/
theorem Written.known (written : Written bytes chars) : ∀ c ∈ chars, c ∈ alphabet ∨ c = '=' := by
  -- There are only 64 values, so their characters can be looked up one by one.
  have among : ∀ value < 64, digit value ∈ alphabet := by decide +kernel
  obtain ⟨values, pad, groups, rfl⟩ := written
  rw [List.forall_mem_append, List.forall_mem_map]
  exact ⟨fun value inside => .inl (among value (groups.small value inside)),
    fun c inside => .inr (List.eq_of_mem_replicate inside)⟩

/-- Three more bytes are four more groups in front. -/
theorem Groups.triple (groups : Groups bytes values pad) (a b c : UInt8) :
    Groups (a :: b :: c :: bytes)
      ([a.toNat / 4, a.toNat % 4 * 16 + b.toNat / 16, b.toNat % 16 * 4 + c.toNat / 64,
        c.toNat % 64] ++ values) pad where
  -- Only the four new groups have to be looked at; the others are small already.
  small := by
    have first := a.toNat_lt
    have second := b.toNat_lt
    have third := c.toNat_lt
    rw [List.forall_mem_append]
    refine ⟨?_, groups.small⟩
    simp only [List.forall_mem_cons, List.not_mem_nil, false_imp_iff, implies_true,
      and_true]
    omega
  -- The three new bytes are cut into four groups of six bits.
  bits := by
    rw [List.flatMap_append, bits_triple b.toNat_lt c.toNat_lt, groups.bits]
    simp only [bitsOf, List.flatMap_cons, List.append_assoc]
  filled := groups.filled
  length := by
    have lengths := groups.length
    simp only [List.length_append, List.length_cons, List.length_nil]
    omega

/-- A byte that is left over is two groups, and two signs fill up. -/
theorem Groups.single (a : UInt8) : Groups [a] [a.toNat / 4, a.toNat % 4 * 16] 2 where
  small := by
    have bound := a.toNat_lt
    simp only [List.forall_mem_cons, List.not_mem_nil, false_imp_iff, implies_true,
      and_true]
    omega
  bits := by
    -- The last two bits of the byte are filled up with four zeros.
    have cut := bits_append 6 2 a.toNat
    have filled := @bits_glue 2 4 (a.toNat % 4) 0 (by decide)
    simp only [Nat.reducePow, Nat.reduceAdd, Nat.add_zero] at cut filled
    simp only [bitsOf, List.flatMap_cons, List.flatMap_nil, List.append_nil, cut, filled, bits_zero,
      List.append_assoc, Nat.reduceMul]
  filled := by decide
  length := rfl

/-- Two bytes that are left over are three groups, and one sign fills up. -/
theorem Groups.pair (a b : UInt8) :
    Groups [a, b] [a.toNat / 4, a.toNat % 4 * 16 + b.toNat / 16, b.toNat % 16 * 4] 1 where
  small := by
    have first := a.toNat_lt
    have second := b.toNat_lt
    simp only [List.forall_mem_cons, List.not_mem_nil, false_imp_iff, implies_true,
      and_true]
    omega
  bits := by
    have bound := b.toNat_lt
    -- The two bytes are cut after six and after four bits, and two zeros fill the last group.
    have cut := bits_append 6 2 a.toNat
    have between := bits_append 4 4 b.toNat
    have glued := @bits_glue 2 4 (a.toNat % 4) (b.toNat / 16) (by omega)
    have filled := @bits_glue 4 2 (b.toNat % 16) 0 (by decide)
    simp only [Nat.reducePow, Nat.reduceAdd, Nat.add_zero] at cut between glued filled
    simp only [bitsOf, List.flatMap_cons, List.flatMap_nil, List.append_nil, cut, between, glued,
      filled, bits_zero, List.append_assoc, Nat.reduceMul]
  filled := by decide
  length := rfl

/-- What is written for bytes is their standard encoding. -/
theorem written_encodeBytes (bytes : List UInt8) : Written bytes (encodeBytes bytes) := by
  -- The recursion takes three bytes at a time, and one or two may be left over.
  fun_induction encodeBytes bytes with
  | case1 => exact ⟨[], 0, ⟨by simp, rfl, by decide, rfl⟩, rfl⟩
  | case2 a => exact ⟨_, 2, .single a, rfl⟩
  | case3 a b => exact ⟨_, 1, .pair a b, rfl⟩
  | case4 a b c rest ih =>
    obtain ⟨values, pad, groups, chars⟩ := ih
    exact ⟨_, pad, groups.triple a b c, by rw [chars]; rfl⟩

/-- Bytes have one standard encoding. -/
theorem Written.unique (first : Written bytes left) (second : Written bytes right) :
    left = right := by
  obtain ⟨values, pad, groups, rfl⟩ := first
  obtain ⟨others, fill, alike, rfl⟩ := second
  -- The number of signs follows from that of the bytes, and then all bits are the same.
  have signs : pad = fill := by
    have lengths := groups.length
    have others := alike.length
    have filled := groups.filled
    have same := alike.filled
    omega
  subst fill
  rw [groups_injective groups.small alike.small (groups.bits.trans alike.bits.symm)]

/-- A text that consists of characters of groups and of signs has these groups and signs only. -/
theorem written_groups_iff (small : ∀ value ∈ values, value < 64) :
    Written bytes (values.map digit ++ List.replicate pad '=') ↔ Groups bytes values pad := by
  refine ⟨?_, fun groups => ⟨values, pad, groups, rfl⟩⟩
  rintro ⟨others, signs, groups, same⟩
  -- The groups are found again as the values of the characters, and signs have none.
  have back {values : List Nat} (pad : Nat) (small : ∀ value ∈ values, value < 64) :
      (values.map digit ++ List.replicate pad '=').filterMap digitValue? = values := by
    have none : (List.replicate pad '=').filterMap digitValue? = [] := by
      rw [List.filterMap_replicate_of_none digitValue?_sign]
    rw [List.filterMap_append, none, List.append_nil, List.filterMap_map]
    exact (List.filterMap_congr fun value inside => digitValue?_digit (small value inside)).trans
      List.filterMap_some
  have equal : values = others := by
    rw [← back pad small, same, back signs groups.small]
  subst equal
  have lengths := congrArg List.length same
  simp only [List.length_append, List.length_map, List.length_replicate] at lengths
  obtain rfl : pad = signs := by omega
  exact groups

end Groups

section Decoding

variable {bytes first : List UInt8} {chars rest : List Char} {a b c d : Char}

/-- Four characters are read as three bytes if each of them is that of a group. -/
theorem decodeFull?_eq_some_iff :
    decodeFull? a b c d = some bytes ↔ ∃ x y z w, digitValue? a = some x ∧
      digitValue? b = some y ∧ digitValue? c = some z ∧ digitValue? d = some w ∧
        [(x * 4 + y / 16).toUInt8, (y % 16 * 16 + z / 4).toUInt8, (z % 4 * 64 + w).toUInt8] =
          bytes := by
  -- The reader takes the four values one by one, and fails with the first that is missing.
  simp only [decodeFull?, Option.bind_eq_bind, Option.bind_eq_some_iff, Option.pure_def,
    Option.some.injEq]
  grind

/-- The sign that fills up is not read as the character of a group. -/
theorem decodeFull?_sign : decodeFull? a b c '=' = none := by
  -- If it were read, the sign would have a value.
  rw [← Option.not_isSome_iff_eq_none, Option.isSome_iff_exists]
  rintro ⟨bytes, read⟩
  obtain ⟨x, y, z, w, -, -, -, last, -⟩ := decodeFull?_eq_some_iff.mp read
  rw [digitValue?_sign] at last
  cases last

/-- With two signs, four characters are read as one byte. -/
theorem decodePadded?_two_eq_some_iff :
    decodePadded? a b '=' '=' = some bytes ↔ ∃ x y, digitValue? a = some x ∧
      digitValue? b = some y ∧ y % 16 = 0 ∧ [(x * 4 + y / 16).toUInt8] = bytes := by
  -- The two values are there, and the bits that belong to no byte are zero.
  simp only [decodePadded?, ne_eq, not_true_eq_false, if_false, if_true, Option.bind_eq_bind,
    Option.bind_eq_some_iff, Option.ite_none_right_eq_some, Option.some.injEq]
  grind

/-- With one sign, four characters are read as two bytes. -/
theorem decodePadded?_one_eq_some_iff (other : c ≠ '=') :
    decodePadded? a b c '=' = some bytes ↔ ∃ x y z, digitValue? a = some x ∧
      digitValue? b = some y ∧ digitValue? c = some z ∧ z % 4 = 0 ∧
        [(x * 4 + y / 16).toUInt8, (y % 16 * 16 + z / 4).toUInt8] = bytes := by
  -- The three values are there, and the bits that belong to no byte are zero.
  simp only [decodePadded?, ne_eq, not_true_eq_false, if_false, if_neg other, Option.bind_eq_bind,
    Option.bind_eq_some_iff, Option.ite_none_right_eq_some, Option.some.injEq]
  grind

/-- A byte is read from a number that it is. -/
theorem toUInt8_eq {number : Nat} (byte : UInt8) (same : number = byte.toNat) :
    number.toUInt8 = byte := by
  -- A byte is the number that it was made of.
  rw [same]
  exact UInt8.ofNat_toNat

/-- A small number is kept by the byte that it is read as. -/
theorem toNat_toUInt8 {number : Nat} (small : number < 256) : number.toUInt8.toNat = number :=
  UInt8.toNat_ofNat_of_lt' small

/-- Full groups in front are read apart from what follows. -/
theorem decodeBytes?_full (full : decodeFull? a b c d = some first) :
    decodeBytes? (a :: b :: c :: d :: rest) = (decodeBytes? rest).map (first ++ ·) := by
  -- The last four characters are tried as full groups before they are taken to be filled up.
  cases rest with
  | nil =>
    rw [decodeBytes?.eq_2, full, decodeBytes?.eq_1, Option.map_some, List.append_nil]
    rfl
  | cons head tail =>
    rw [decodeBytes?, full]
    · cases decodeBytes? (head :: tail) <;> rfl
    · simp

/-- The last four characters are read as filled up if the last one is a sign. -/
theorem decodeBytes?_sign : decodeBytes? [a, b, c, '='] = decodePadded? a b c '=' := by
  -- A sign is no digit, so the first reader fails and the second one is tried.
  rw [decodeBytes?.eq_2, decodeFull?_sign]
  rfl

/-- What is written for bytes is read as the bytes. -/
theorem decodeBytes?_encodeBytes (bytes : List UInt8) :
    decodeBytes? (encodeBytes bytes) = some bytes := by
  -- Each case of the encoder is read back by its own case of the decoder.
  fun_induction encodeBytes bytes with
  | case1 => rfl
  | case2 a =>
    have bound := a.toNat_lt
    rw [decodeBytes?_sign, decodePadded?_two_eq_some_iff]
    refine ⟨_, _, digitValue?_digit (by omega), digitValue?_digit (by omega), by omega, ?_⟩
    rw [toUInt8_eq a (by omega)]
  | case3 a b =>
    have first := a.toNat_lt
    have second := b.toNat_lt
    have low : b.toNat % 16 * 4 < 64 := by omega
    rw [decodeBytes?_sign, decodePadded?_one_eq_some_iff (digit_ne_sign low)]
    refine ⟨_, _, _, digitValue?_digit (by omega), digitValue?_digit (by omega),
      digitValue?_digit low, by omega, ?_⟩
    rw [toUInt8_eq a (by omega), toUInt8_eq b (by omega)]
  | case4 a b c rest ih =>
    have first := a.toNat_lt
    have second := b.toNat_lt
    have third := c.toNat_lt
    -- The four characters give back the three bytes, since each group is below 64.
    have full : decodeFull? (digit (a.toNat / 4)) (digit (a.toNat % 4 * 16 + b.toNat / 16))
        (digit (b.toNat % 16 * 4 + c.toNat / 64)) (digit (c.toNat % 64)) = some [a, b, c] := by
      refine decodeFull?_eq_some_iff.mpr ⟨_, _, _, _, digitValue?_digit (by omega),
        digitValue?_digit (by omega), digitValue?_digit (by omega), digitValue?_digit (by omega), ?_⟩
      rw [toUInt8_eq a (by omega), toUInt8_eq b (by omega),
        toUInt8_eq c (by omega)]
    rw [decodeBytes?_full full, ih]
    rfl

/-- Three bytes that are read from four characters are written as them. -/
theorem encodeBytes_full (full : decodeFull? a b c d = some first) (behind : List UInt8) :
    encodeBytes (first ++ behind) = a :: b :: c :: d :: encodeBytes behind := by
  obtain ⟨x, y, z, w, readA, readB, readC, readD, rfl⟩ := decodeFull?_eq_some_iff.mp full
  obtain ⟨smallX, rfl⟩ := digit_of_digitValue? readA
  obtain ⟨smallY, rfl⟩ := digit_of_digitValue? readB
  obtain ⟨smallZ, rfl⟩ := digit_of_digitValue? readC
  obtain ⟨smallW, rfl⟩ := digit_of_digitValue? readD
  -- The numbers of the characters are what the bytes are cut into again.
  have groupX : (x * 4 + y / 16) / 4 = x := by omega
  have groupY : (x * 4 + y / 16) % 4 * 16 + (y % 16 * 16 + z / 4) / 16 = y := by omega
  have groupZ : (y % 16 * 16 + z / 4) % 16 * 4 + (z % 4 * 64 + w) / 64 = z := by omega
  have groupW : (z % 4 * 64 + w) % 64 = w := by omega
  rw [List.cons_append, List.cons_append, List.cons_append, List.nil_append, encodeBytes,
    toNat_toUInt8 (by omega), toNat_toUInt8 (by omega), toNat_toUInt8 (by omega), groupX, groupY,
    groupZ, groupW]

/-- Bytes that are read from four characters that are filled up are written as them. -/
theorem encodeBytes_padded (padded : decodePadded? a b c d = some bytes) :
    encodeBytes bytes = [a, b, c, d] := by
  -- Two signs, one sign or none may stand at the end.
  by_cases last : d = '='
  · subst last
    by_cases third : c = '='
    · subst third
      obtain ⟨x, y, readA, readB, zero, rfl⟩ := decodePadded?_two_eq_some_iff.mp padded
      obtain ⟨smallX, rfl⟩ := digit_of_digitValue? readA
      -- The low bits of the second group are zero, so its high bits tell the byte.
      obtain ⟨smallY, rfl⟩ := digit_of_digitValue? readB
      have groupX : (x * 4 + y / 16) / 4 = x := by omega
      have groupY : (x * 4 + y / 16) % 4 * 16 = y := by omega
      rw [encodeBytes, toNat_toUInt8 (by omega), groupX, groupY]
    · obtain ⟨x, y, z, readA, readB, readC, zero, rfl⟩ :=
        (decodePadded?_one_eq_some_iff third).mp padded
      obtain ⟨smallX, rfl⟩ := digit_of_digitValue? readA
      obtain ⟨smallY, rfl⟩ := digit_of_digitValue? readB
      obtain ⟨smallZ, rfl⟩ := digit_of_digitValue? readC
      -- The low bits of the third group are zero, and the byte in the middle is told by two groups.
      have groupX : (x * 4 + y / 16) / 4 = x := by omega
      have groupY : (x * 4 + y / 16) % 4 * 16 + (y % 16 * 16 + z / 4) / 16 = y := by omega
      have groupZ : (y % 16 * 16 + z / 4) % 16 * 4 = z := by omega
      rw [encodeBytes, toNat_toUInt8 (by omega), toNat_toUInt8 (by omega), groupX, groupY, groupZ]
  · -- Without a sign at the end nothing is read.
    rw [decodePadded?, if_pos last] at padded
    cases padded

/-- What is read as bytes is what is written for them. -/
theorem encodeBytes_of_decodeBytes? (read : decodeBytes? chars = some bytes) :
    encodeBytes bytes = chars := by
  fun_induction decodeBytes? chars generalizing bytes with
  | case1 =>
    cases read
    rfl
  | case2 a b c d =>
    -- The last four characters are full groups, or else filled up.
    rcases (Option.orElse_eq_some _ _ _).mp read with full | ⟨-, padded⟩
    · have whole := encodeBytes_full full []
      rwa [List.append_nil, encodeBytes.eq_1] at whole
    · exact encodeBytes_padded padded
  | case3 a b c d rest more ih =>
    obtain ⟨first, full, read⟩ := Option.bind_eq_some_iff.mp read
    obtain ⟨behind, others, same⟩ := Option.bind_eq_some_iff.mp read
    cases same
    rw [encodeBytes_full full, ih others]
  | case4 => cases read

/-- Characters are read as bytes exactly if they are the standard encoding of these. -/
theorem decodeBytes?_eq_some_iff : decodeBytes? chars = some bytes ↔ Written bytes chars := by
  -- The encoding of given bytes is unique, so reading back and writing decide each other.
  constructor
  · intro read
    rw [← encodeBytes_of_decodeBytes? read]
    exact written_encodeBytes bytes
  · intro written
    rw [written.unique (written_encodeBytes bytes)]
    exact decodeBytes?_encodeBytes bytes

/-- A text is read exactly from the standard encoding of its bytes. -/
theorem decode?_eq_some_iff {encoded text : String} :
    decode? encoded = some text ↔ Written (Utf8.encode text) encoded.toList := by
  -- A text is its bytes in UTF-8, and the bytes are read from the characters.
  rw [decode?, Option.bind_eq_some_iff]
  constructor
  · rintro ⟨bytes, read, denotes⟩
    rw [Utf8.encode_of_decode? denotes]
    exact decodeBytes?_eq_some_iff.mp read
  · intro written
    exact ⟨_, decodeBytes?_eq_some_iff.mpr written, Utf8.decode?_encode text⟩

/-- What is written for a text is read as the text. -/
theorem decode?_encode (text : String) : decode? (encode text) = some text := by
  -- What is written for the bytes of the text is one way to write them, and these are decoded.
  rw [decode?_eq_some_iff, encode, String.toList_ofList]
  exact written_encodeBytes _

example : decode? "Zm9vZA==" = some "food" ∧ decode? "Zm9vZB==" = none := by decide +kernel

end Decoding

end KeyedCoding.Text.Base64
