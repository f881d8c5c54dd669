import FexEmu.Interpreter.SoftFloatProofs
/-!
# Packed decimals

`F80BCDSTORE` and `F80BCDLOAD`: eighteen digits, two in a byte, and a sign in the last of ten bytes.
-/
namespace FexEmu.Interpreter

open SoftFloat ExtendedFloat
open Function (update update_self update_of_ne)

/-- The memory of an `X80SoftFloat` as its ten bytes. -/
abbrev F80Bytes := Nat → BitVec 8

def F80Bytes.toX80 (b : F80Bytes) : X80SoftFloat :=
  ⟨b 7 ++ b 6 ++ b 5 ++ b 4 ++ b 3 ++ b 2 ++ b 1 ++ b 0, (b 9 ++ b 8).setWidth 15, (b 9).getLsbD 7⟩

def bytesOf (x : X80SoftFloat) : F80Bytes := fun i =>
  (BitVec.ofBool x.sign ++ x.exponent ++ x.significand).extractLsb' (8 * i) 8

/-- The loop of the store with `n` rounds to go, at byte `i`. -/
def bcdStoreLoop : Nat → Nat → BitVec 64 → F80Bytes → F80Bytes
  | 0, _, _, bcd => bcd
  | n + 1, i, tmp, bcd =>
    if tmp = 0 then bcd
    else
      let digit := (tmp % 100).setWidth 8
      let upperNibble := digit / 10
      let lowerNibble := digit % 10
      bcdStoreLoop n (i + 1) (tmp / 100) (update bcd i ((upperNibble <<< 4) ||| lowerNibble))

def f80BCDStore (src1 : X80SoftFloat) (roundingMode : RoundingMode) : X80SoftFloat :=
  let negative := src1.sign
  let src1 := FRNDINT src1 roundingMode
  let src1 : X80SoftFloat := { src1 with sign := false }
  let bcd := bcdStoreLoop 9 0 (toUInt64 src1 roundingMode) (fun _ => 0)
  F80Bytes.toX80 (update bcd 9 (if negative then 0x80 else 0))

/-- The loop of the load with `n` rounds to go: the byte is `8 - i` in round `i`. -/
def bcdLoadLoop (src1 : F80Bytes) : Nat → BitVec 64 → BitVec 64
  | 0, bcd => bcd
  | n + 1, bcd =>
    let digit := src1 n
    let bcd := bcd * 100
    let bcd := bcd + (digit >>> 4).setWidth 64 * 10
    bcdLoadLoop src1 n (bcd + (digit &&& 0xF).setWidth 64)

def f80BCDLoad (src : X80SoftFloat) : X80SoftFloat :=
  let src1 := bytesOf src
  let bcd := bcdLoadLoop src1 9 0
  let negative := src1 9 &&& 0x80 ≠ 0
  { ofUInt64 bcd with sign := negative }

/-- The digits, the lowest first. -/
def nibble (b : F80Bytes) (k : Nat) : BitVec 8 := if k % 2 = 0 then b (k / 2) &&& 0xF else b (k / 2) >>> 4

/-- An encoding of eighteen digits and a sign. -/
structure IsPackedDecimal (b : F80Bytes) : Prop where
  digits : ∀ k < 18, (nibble b k).toNat ≤ 9
  sign : b 9 = 0x80 ∨ b 9 = 0

theorem bytesOf_toX80 (b : F80Bytes) {i : Nat} (hi : i < 10) : bytesOf b.toX80 i = b i := by
  apply BitVec.eq_of_getLsbD_eq
  intro j hj
  have hword : (bytesOf b.toX80 i).getLsbD j = (BitVec.ofBool ((b 9).getLsbD 7) ++ (b 9 ++ b 8).setWidth 15 ++
      (b 7 ++ b 6 ++ b 5 ++ b 4 ++ b 3 ++ b 2 ++ b 1 ++ b 0)).getLsbD (8 * i + j) := by
    rw [bytesOf, BitVec.getLsbD_extractLsb']
    simp [hj, F80Bytes.toX80]
  rw [hword]
  simp only [BitVec.getLsbD_append, BitVec.getLsbD_setWidth]
  by_cases h8 : i < 8
  · interval_cases i
    all_goals
      simp (disch := omega) only [if_pos, if_neg]
      congr 1
      omega
  · -- the sign is the last bit, behind the exponent
    by_cases h79 : i = 9 ∧ j = 7
    · obtain ⟨rfl, rfl⟩ := h79
      simp
    · obtain rfl | rfl : i = 8 ∨ i = 9 := by omega
      · simp (disch := omega) only [if_pos, if_neg]
        simp [show j < 15 by omega]
      · simp (disch := omega) only [if_pos, if_neg]
        simp [show 72 + j - 64 < 15 by omega, show 72 + j - 64 - 8 = j by omega]

/-! ## Digits -/

def pairByte (d : Nat) : BitVec 8 := BitVec.ofNat 8 (16 * (d / 10) + d % 10)

theorem pairByte_store (d : Fin 100) :
    ((BitVec.ofNat 8 d / 10) <<< 4) ||| (BitVec.ofNat 8 d % 10) = pairByte d := by
  revert d
  decide

theorem pairByte_load (d : Fin 100) :
    (pairByte d >>> 4).toNat * 10 + (pairByte d &&& 0xF).toNat = d := by
  revert d
  decide

/-- The number of `n` pairs of digits. -/
def pairsValue (p : Nat → Nat) : Nat → Nat
  | 0 => 0
  | n + 1 => p n * 100 ^ n + pairsValue p n

variable {p : Nat → Nat}

theorem pairsValue_lt (hp : ∀ i, p i < 100) (n : Nat) : pairsValue p n < 100 ^ n := by
  induction n with
  | zero => exact Nat.one_pos
  | succ n ih =>
    calc p n * 100 ^ n + pairsValue p n < p n * 100 ^ n + 100 ^ n := Nat.add_lt_add_left ih _
      _ = (p n + 1) * 100 ^ n := by rw [Nat.add_mul, Nat.one_mul]
      _ ≤ 100 * 100 ^ n := Nat.mul_le_mul_right _ (hp n)
      _ = 100 ^ (n + 1) := by rw [Nat.pow_succ, Nat.mul_comm]

theorem pairsValue_digit (hp : ∀ i, p i < 100) {n i : Nat} (hi : i < n) : pairsValue p n / 100 ^ i % 100 = p i := by
  induction n with
  | zero => omega
  | succ n ih =>
    by_cases h : i = n
    · subst h
      rw [pairsValue, Nat.mul_comm, Nat.mul_add_div (Nat.pow_pos (by decide)),
        Nat.div_eq_of_lt (pairsValue_lt hp i), Nat.add_zero, Nat.mod_eq_of_lt (hp i)]
    · have hlt : i < n := by omega
      obtain ⟨k, rfl⟩ : ∃ k, n = i + 1 + k := ⟨n - i - 1, by omega⟩
      have hsplit : p (i + 1 + k) * 100 ^ (i + 1 + k) = 100 ^ i * (p (i + 1 + k) * 100 ^ k * 100) := by
        ring
      rw [pairsValue, hsplit, Nat.mul_add_div (Nat.pow_pos (by decide)), Nat.mul_add_mod_self_right, ih hlt]

theorem pairsValue_pairs (m n : Nat) : pairsValue (fun i => m / 100 ^ i % 100) n = m % 100 ^ n := by
  induction n with
  | zero => rw [pairsValue, Nat.pow_zero, Nat.mod_one]
  | succ n ih =>
    rw [pairsValue, ih, Nat.pow_succ, Nat.mod_mul]
    ring

/-! ## The loops -/

theorem bcdStoreLoop_eq (n : Nat) : ∀ (i : Nat) (tmp : BitVec 64) (bcd : F80Bytes), (∀ j, i ≤ j → bcd j = 0) →
    ∀ j, bcdStoreLoop n i tmp bcd j =
      if i ≤ j ∧ j < i + n then pairByte (tmp.toNat / 100 ^ (j - i) % 100) else bcd j := by
  induction n with
  | zero =>
    intro i tmp bcd _ j
    rw [bcdStoreLoop, if_neg (by omega)]
  | succ n ih =>
    intro i tmp bcd hbcd j
    rw [bcdStoreLoop]
    by_cases h0 : tmp = 0
    · rw [if_pos h0]
      split
      · case isTrue hj =>
        rw [hbcd j hj.1, h0]
        simp [pairByte]
      · rfl
    · have hdiv : (tmp / 100).toNat = tmp.toNat / 100 := BitVec.toNat_udiv ..
      have hdigit : (tmp % 100).setWidth 8 = BitVec.ofNat 8 (tmp.toNat % 100) := by
        apply BitVec.eq_of_toNat_eq
        rfl
      have hbyte := pairByte_store ⟨tmp.toNat % 100, Nat.mod_lt _ (by decide)⟩
      rw [if_neg h0, hdigit, hbyte, ih (i + 1) (tmp / 100) _ ?_ j, hdiv]
      · by_cases hi : j = i
        · subst hi
          rw [if_neg (by omega), if_pos (by omega), update_self, Nat.sub_self, Nat.pow_zero, Nat.div_one]
        · have hne : update bcd i (pairByte (tmp.toNat % 100)) j = bcd j := update_of_ne hi _ _
          by_cases hin : i + 1 ≤ j ∧ j < i + 1 + n
          · have hpow : tmp.toNat / 100 / 100 ^ (j - (i + 1)) = tmp.toNat / 100 ^ (j - i) := by
              rw [Nat.div_div_eq_div_mul, ← Nat.pow_succ', show (j - (i + 1)).succ = j - i by omega]
            rw [if_pos hin, if_pos (by omega), hpow]
          · rw [if_neg hin, if_neg (by omega), hne]
      · intro j hj
        rw [update_of_ne (by omega)]
        exact hbcd j (by omega)

theorem bcdLoadLoop_eq (src1 : F80Bytes) (hp : ∀ i, p i < 100) (n : Nat) : ∀ (bcd : BitVec 64) (k : Nat), n + k ≤ 9 →
    bcd.toNat < 100 ^ k → (∀ i < n, src1 i = pairByte (p i)) →
    (bcdLoadLoop src1 n bcd).toNat = bcd.toNat * 100 ^ n + pairsValue p n := by
  induction n with
  | zero =>
    intro bcd k _ _ _
    rw [bcdLoadLoop, pairsValue, Nat.pow_zero, Nat.mul_one, Nat.add_zero]
  | succ n ih =>
    intro bcd k hk hlt hsrc
    have hload : (pairByte (p n) >>> 4).toNat * 10 + (pairByte (p n) &&& 0xF).toNat = p n :=
      pairByte_load ⟨p n, hp n⟩
    have hpow : 100 ^ (k + 1) ≤ 100 ^ 9 := Nat.pow_le_pow_right (by decide) (by omega)
    have hstep : (bcd * (100 : BitVec 64) + (pairByte (p n) >>> 4).setWidth 64 * 10 +
        (pairByte (p n) &&& 0xF).setWidth 64).toNat = bcd.toNat * 100 + p n := by
      have hhundred : (100 : BitVec 64).toNat = 100 := rfl
      have hten : (10 : BitVec 64).toNat = 10 := rfl
      simp only [BitVec.toNat_add, BitVec.toNat_mul, BitVec.toNat_setWidth, hhundred, hten]
      omega
    have hnext : bcd.toNat * 100 + p n < 100 ^ (k + 1) := by
      have := hp n
      omega
    rw [bcdLoadLoop, hsrc n (by omega), ih _ (k + 1) (by omega) (by rw [hstep]; exact hnext)
      (fun i hi => hsrc i (by omega)), hstep, pairsValue, Nat.pow_succ]
    ring

/-! ## Round trips -/

/-- The encoding of a number. -/
def decimalBytes (s : Bool) (m : Nat) : F80Bytes :=
  update (fun i => if i < 9 then pairByte (m / 100 ^ i % 100) else 0) 9 (if s then 0x80 else 0)

section RoundTrip
variable (s : Bool) {m : Nat} (mode : RoundingMode)

theorem ofNat_withSign : { ofNat false m with sign := s } = ofNat s m := by
  unfold ofNat
  split <;> rfl

theorem ofNat_withoutSign : { ofNat s m with sign := false } = ofNat false m := by
  unfold ofNat
  split <;> rfl

theorem store_eq (hm : m < 10 ^ 18) : f80BCDStore (ofNat s m) mode = (decimalBytes s m).toX80 := by
  have h64 : m < 2 ^ 64 := by omega
  have hloop : bcdStoreLoop 9 0 (BitVec.ofNat 64 m) (fun _ => 0) =
      fun i => if i < 9 then pairByte (m / 100 ^ i % 100) else 0 := by
    funext j
    rw [bcdStoreLoop_eq 9 0 _ _ (fun _ _ => rfl), BitVec.toNat_ofNat, Nat.mod_eq_of_lt h64]
    simp
  rw [f80BCDStore, FRNDINT_ofNat mode h64, ofNat_sign, ofNat_withoutSign, toUInt64_ofNat mode h64, hloop]
  rfl

theorem load_eq {b : F80Bytes} {p : Nat → Nat} (hp : ∀ i, p i < 100) (hb : ∀ i < 9, b i = pairByte (p i))
    (hs : b 9 = if s then 0x80 else 0) : f80BCDLoad b.toX80 = ofNat s (pairsValue p 9) := by
  have hload : (bcdLoadLoop (bytesOf b.toX80) 9 0).toNat = pairsValue p 9 := by
    have hsrc : ∀ i < 9, bytesOf b.toX80 i = pairByte (p i) := by
      intro i hi
      rw [bytesOf_toX80 b (by omega), hb i hi]
    rw [bcdLoadLoop_eq (bytesOf b.toX80) hp 9 0 0 (by decide) (by decide) hsrc]
    exact (Nat.zero_add _).trans rfl
  have hsign : decide (bytesOf b.toX80 9 &&& 0x80 ≠ 0) = s := by
    rw [bytesOf_toX80 b (by decide), hs]
    cases s <;> rfl
  rw [f80BCDLoad, ofUInt64_eq, hload, hsign, ofNat_withSign]

theorem pairByte_nibbles (d : Fin 100) :
    (pairByte d &&& 0xF).toNat = d % 10 ∧ (pairByte d >>> 4).toNat = d / 10 := by
  revert d
  decide

theorem nibble_decimalBytes {k : Nat} (hk : k < 18) : (nibble (decimalBytes s m) k).toNat = m / 10 ^ k % 10 := by
  have hbyte : decimalBytes s m (k / 2) = pairByte (m / 100 ^ (k / 2) % 100) := by
    rw [decimalBytes, update_of_ne (by omega), if_pos (by omega)]
  have hpow : 100 ^ (k / 2) = 10 ^ (2 * (k / 2)) := by rw [Nat.pow_mul]
  have hboth : (pairByte (m / 100 ^ (k / 2) % 100) &&& 0xF).toNat = m / 100 ^ (k / 2) % 100 % 10 ∧
      (pairByte (m / 100 ^ (k / 2) % 100) >>> 4).toNat = m / 100 ^ (k / 2) % 100 / 10 :=
    pairByte_nibbles ⟨m / 100 ^ (k / 2) % 100, Nat.mod_lt _ (by decide)⟩
  obtain ⟨hlo, hhi⟩ := hboth
  unfold nibble
  split
  · case isTrue h =>
    rw [hbyte, hlo, Nat.mod_mod_of_dvd _ (by decide), hpow, show 2 * (k / 2) = k by omega]
  · case isFalse h =>
    have hk1 : 10 ^ k = 10 ^ (2 * (k / 2)) * 10 := by rw [← Nat.pow_succ, show (2 * (k / 2)).succ = k by omega]
    rw [hbyte, hhi, hk1, ← Nat.div_div_eq_div_mul, hpow]
    omega

theorem pairByte_of_nibbles (x : BitVec 8) (hlo : (x &&& 0xF).toNat ≤ 9) (hhi : (x >>> 4).toNat ≤ 9) :
    pairByte ((x >>> 4).toNat * 10 + (x &&& 0xF).toNat) = x := by
  revert x
  decide

theorem IsPackedDecimal.pairs {b : F80Bytes} (h : IsPackedDecimal b) :
    ∃ p : Nat → Nat, (∀ i, p i < 100) ∧ ∀ i < 9, b i = pairByte (p i) := by
  have hnibbles : ∀ i < 9, (b i &&& 0xF).toNat ≤ 9 ∧ (b i >>> 4).toNat ≤ 9 := by
    intro i hi
    have hlo := h.digits (2 * i) (by omega)
    have hhi := h.digits (2 * i + 1) (by omega)
    rw [nibble, if_pos (by omega), show 2 * i / 2 = i by omega] at hlo
    rw [nibble, if_neg (by omega), show (2 * i + 1) / 2 = i by omega] at hhi
    exact ⟨hlo, hhi⟩
  refine ⟨fun i => if i < 9 then (b i >>> 4).toNat * 10 + (b i &&& 0xF).toNat else 0, ?_, ?_⟩
  · intro i
    dsimp only
    split
    · case isTrue hi =>
      have := hnibbles i hi
      omega
    · decide
  · intro i hi
    obtain ⟨hlo, hhi⟩ := hnibbles i hi
    dsimp only
    rw [if_pos hi, pairByte_of_nibbles _ hlo hhi]

theorem store_load {b : F80Bytes} (h : IsPackedDecimal b) {i : Nat} (hi : i < 10) :
    bytesOf (f80BCDStore (f80BCDLoad b.toX80) mode) i = b i := by
  obtain ⟨p, hp, hb⟩ := h.pairs
  have hs : ∃ s : Bool, b 9 = if s then 0x80 else 0 := by
    rcases h.sign with h9 | h9
    · exact ⟨true, h9⟩
    · exact ⟨false, h9⟩
  obtain ⟨s, hs⟩ := hs
  rw [load_eq s hp hb hs, store_eq s mode (pairsValue_lt hp 9), bytesOf_toX80 _ hi]
  by_cases h9 : i = 9
  · subst h9
    rw [decimalBytes, update_self, hs]
  · rw [decimalBytes, update_of_ne h9, if_pos (by omega), pairsValue_digit hp (by omega), hb i (by omega)]

theorem load_store (hm : m < 10 ^ 18) : f80BCDLoad (f80BCDStore (ofNat s m) mode) = ofNat s m := by
  have hb : ∀ i < 9, decimalBytes s m i = pairByte (m / 100 ^ i % 100) := by
    intro i hi
    rw [decimalBytes, update_of_ne (by omega), if_pos hi]
  have hs : decimalBytes s m 9 = if s then 0x80 else 0 := update_self ..
  rw [store_eq s mode hm, load_eq s (p := fun i => m / 100 ^ i % 100) (fun _ => Nat.mod_lt _ (by decide)) hb hs,
    pairsValue_pairs, Nat.mod_eq_of_lt (show m < 100 ^ 9 from hm)]

/-- The conversions of packed decimals are inverse to each other, in every rounding mode. -/
theorem packedDecimal_round_trip :
    (∀ (s : Bool) (m : Nat), m < 10 ^ 18 →
      (∀ k < 18, (nibble (bytesOf (f80BCDStore (ofNat s m) mode)) k).toNat = m / 10 ^ k % 10) ∧
      bytesOf (f80BCDStore (ofNat s m) mode) 9 = (if s then 0x80 else 0) ∧
      f80BCDLoad (f80BCDStore (ofNat s m) mode) = ofNat s m) ∧
    ∀ b : F80Bytes, IsPackedDecimal b → ∀ i < 10, bytesOf (f80BCDStore (f80BCDLoad b.toX80) mode) i = b i := by
  refine ⟨?_, fun b h i hi => store_load mode h hi⟩
  intro s m hm
  have hbytes : ∀ i < 10, bytesOf (f80BCDStore (ofNat s m) mode) i = decimalBytes s m i := by
    intro i hi
    rw [store_eq s mode hm, bytesOf_toX80 _ hi]
  refine ⟨?_, ?_, load_store s mode hm⟩
  · intro k hk
    rw [← nibble_decimalBytes s hk, nibble, nibble, hbytes _ (by omega)]
  · rw [hbytes 9 (by decide)]
    exact update_self ..

end RoundTrip

/-- The encoding of -123456789. -/
def encoded : F80Bytes := fun i => [0x89, 0x67, 0x45, 0x23, 0x01, 0, 0, 0, 0, 0x80].getD i 0

theorem packedDecimal_minus_forty_two :
    f80BCDLoad (f80BCDStore (ofNat true 42) .near_even) = ofNat true 42 ∧
      ∀ i < 10, bytesOf (f80BCDStore (f80BCDLoad encoded.toX80) .near_even) i = encoded i :=
  ⟨((packedDecimal_round_trip .near_even).1 true 42 (by decide)).2.2,
    (packedDecimal_round_trip .near_even).2 encoded ⟨by decide, by decide⟩⟩

end FexEmu.Interpreter
