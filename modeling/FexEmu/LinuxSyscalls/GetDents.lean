import Mathlib.Data.BitVec
import Mathlib.Tactic
/-!
# `getdents` over `getdents64`

`GetDentsEmulation` expands the guest's records into a temporary buffer, has the kernel fill that, and converts its records
back. Both buffers are of `count` bytes, and each access is logged.
-/
namespace FexEmu.LinuxSyscalls.GetDents

abbrev Buffer := Nat → BitVec 8

/-- Offsets and sizes. -/
abbrev Accesses := List (Nat × Nat)

/-- The record types that `GetDentsEmulation` is instantiated with. -/
inductive Dirent
  | linux_dirent | linux_dirent_32

namespace Dirent

/-- The size of `d_ino` and of `d_off`. -/
def inoSize : Dirent → Nat
  | linux_dirent => 8
  | linux_dirent_32 => 4

def reclenAt (T : Dirent) : Nat := 2 * T.inoSize

def nameAt (T : Dirent) : Nat := T.reclenAt + 2

def size : Dirent → Nat
  | linux_dirent => 24
  | linux_dirent_32 => 12

def incrementOffset : Dirent → Bool
  | linux_dirent => false
  | linux_dirent_32 => true

end Dirent

def load (b : Buffer) (offset n : Nat) : Nat := (List.range n).foldr (fun i v => (b (offset + i)).toNat + 256 * v) 0

def store (b : Buffer) (offset n v : Nat) : Buffer := fun a =>
  if offset ≤ a ∧ a < offset + n then BitVec.ofNat 8 (v / 256 ^ (a - offset)) else b a

def memcpy (b : Buffer) (offset : Nat) (source : Buffer) (from_ n : Nat) : Buffer := fun a =>
  if offset ≤ a ∧ a < offset + n then source (from_ + (a - offset)) else b a

/-- To a multiple of `alignof(uint64_t)`. -/
def alignUp (value : Nat) : Nat := (value + 7) % 2 ^ 64 / 8 * 8

variable (T : Dirent) (count : Nat)

/-- The size of a record in the temporary buffer: `linux_dirent_64` has 19 bytes before its name. -/
def expanded (reclen : Nat) : Nat := alignUp ((reclen + (2 ^ 64 + 19 - T.size)) % 2 ^ 64)

/-- The loop that copies the incoming records. The fuel runs out where a loop does not end. -/
def copyIn (guest : Buffer) : Nat → Nat → Nat → Buffer → Accesses → Option (Buffer × Accesses)
  | 0, _, _, _, _ => none
  | fuel + 1, offset, tmpOffset, tmp, log =>
    if offset < count then
      let reclen := load guest (offset + T.reclenAt) 2
      let log := log ++ [(offset + T.reclenAt, 2)]
      if reclen = 0 ∨ count < offset + reclen then some (tmp, log)
      else
        -- `std::clamp<uint32_t>` of a difference that is negative for a short record
        let copySize := min ((reclen + (2 ^ 64 - (T.nameAt + 1))) % 2 ^ 32) (count - offset)
        let tmp := store tmp tmpOffset 8 (load guest offset T.inoSize)
        let tmp := store tmp (tmpOffset + 8) 8 (load guest (offset + T.inoSize) T.inoSize)
        let tmp := store tmp (tmpOffset + 16) 2 (expanded T reclen)
        let tmp := store tmp (tmpOffset + 18) 1 (load guest (offset + reclen - 1) 1)
        let tmp := memcpy tmp (tmpOffset + 19) guest (offset + T.nameAt) copySize
        copyIn guest fuel (offset + reclen) (tmpOffset + expanded T reclen) tmp (log ++
          [(offset, T.inoSize), (tmpOffset, 8), (offset + T.inoSize, T.inoSize), (tmpOffset + 8, 8), (tmpOffset + 16, 2),
            (offset + reclen - 1, 1), (tmpOffset + 18, 1), (offset + T.nameAt, copySize), (tmpOffset + 19, copySize)])
    else some (tmp, log)

/-- The loop that looks for a `d_ino` that the guest's does not hold. -/
def truncates (tmp : Buffer) (result : Nat) : Nat → Nat → Accesses → Option (Bool × Accesses)
  | 0, _, _ => none
  | fuel + 1, tmpOffset, log =>
    if tmpOffset < result then
      if load tmp tmpOffset 8 % 256 ^ T.inoSize ≠ load tmp tmpOffset 8 then some (true, log ++ [(tmpOffset, 8)])
      else
        truncates tmp result fuel (tmpOffset + load tmp (tmpOffset + 16) 2) (log ++ [(tmpOffset, 8), (tmpOffset + 16, 2)])
    else some (false, log)

def overflows (tmp : Buffer) (result fuel : Nat) (log : Accesses) : Option (Bool × Accesses) :=
  if T.inoSize < 8 then truncates T tmp result fuel 0 log else some (false, log)

def shrunk (reclen : Nat) : Nat := alignUp ((reclen + (2 ^ 64 + T.size - 19)) % 2 ^ 64)

/-- The loop that copies the kernel's records back. -/
def copyOut (tmp : Buffer) (result : Nat) :
    Nat → Nat → Nat → Nat → Buffer → Accesses → Option (Nat × Buffer × Accesses)
  | 0, _, _, _, _, _ => none
  | fuel + 1, tmpOffset, offset, offsetIndex, guest, log =>
    if tmpOffset < result then
      let reclen := load tmp (tmpOffset + 16) 2
      let log := log ++ [(tmpOffset + 16, 2)]
      if reclen = 0 then some (offset, guest, log)
      else
        let nameLength := (reclen + (2 ^ 64 - 20)) % 2 ^ 64
        -- the offset of the hidden `d_type`, after the stored `d_reclen`
        let last := (offset + shrunk T reclen % 2 ^ 16 + (2 ^ 64 - 1)) % 2 ^ 64
        let off := if T.incrementOffset then offsetIndex else load tmp (tmpOffset + 8) 8
        let guest := store guest offset T.inoSize (load tmp tmpOffset 8)
        let guest := store guest (offset + T.inoSize) T.inoSize off
        let guest := store guest (offset + T.reclenAt) 2 (shrunk T reclen)
        let guest := memcpy guest (offset + T.nameAt) tmp (tmpOffset + 19) nameLength
        let guest := store guest last 1 (load tmp (tmpOffset + 18) 1)
        copyOut tmp result fuel (tmpOffset + reclen) (offset + shrunk T reclen) (offsetIndex + 1) guest (log ++
          [(tmpOffset, 8), (offset, T.inoSize), (tmpOffset + 8, if T.incrementOffset then 0 else 8),
            (offset + T.inoSize, T.inoSize), (offset + T.reclenAt, 2), (tmpOffset + 19, nameLength),
            (offset + T.nameAt, nameLength), (tmpOffset + 18, 1), (last, 1)])
    else some (offset, guest, log)

/-- What the system call leaves in the temporary buffer. -/
def filled (answer : List (BitVec 8)) (tmp : Buffer) : Buffer := fun a => answer[a]?.getD (tmp a)

/-- GetDentsEmulation throws, or returns what it made of the guest's buffer. -/
inductive Outcome
  | thrown
  | returned (result : Int) (guest : Buffer) (log : Accesses)

/-- The answer is the kernel's: its error or the bytes that it stores. An empty vector has no element 0. -/
def getDentsEmulation (fuel : Nat) (guest : Buffer) (answer : Except Nat (List (BitVec 8))) : Option Outcome :=
  if count = 0 then some .thrown
  else do
    let (tmp, log) ← copyIn T count guest fuel 0 0 (fun _ => 0) []
    match answer with
    | .error errno => some (.returned (-errno) guest log)
    | .ok bytes =>
      let tmp := filled bytes tmp
      let (overflow, log) ← overflows T tmp bytes.length fuel log
      if overflow then some (.returned (-75) guest log)
      else
        let (offset, guest, log) ← copyOut T tmp bytes.length fuel 0 0 1 guest log
        some (.returned offset guest log)

/-! ## The statement -/

/-- Every access is within the guest's buffer. -/
def Inside (log : Accesses) : Prop := ∀ a ∈ log, a.1 + a.2 ≤ count

def Outcome.Inside : Outcome → Prop
  | .thrown => True
  | .returned _ _ log => GetDents.Inside count log

/-- Records of these lengths lie from one offset to another. A name has less than 4096 bytes. -/
def Records (b : Buffer) : Nat → List Nat → Nat → Prop
  | offset, [], stop => offset = stop
  | offset, reclen :: lengths, stop => load b (offset + 16) 2 = reclen ∧ 8 ∣ reclen ∧ 24 ≤ reclen ∧ reclen ≤ 4120 ∧
    Records b (offset + reclen) lengths stop

/-- A well-formed answer of `getdents64`, whatever was in the buffer before. -/
def WellFormed (bytes : List (BitVec 8)) (lengths : List Nat) : Prop :=
  bytes.length ≤ count ∧ ∀ tmp, Records (filled bytes tmp) 0 lengths bytes.length

/-- The records that the copy back reaches, by their place in the guest's buffer and in Tmp. -/
inductive Reaches (guest : Buffer) : Nat → Nat → Nat → Nat → Prop
  | here (offset tmpOffset : Nat) : Reaches guest offset tmpOffset offset tmpOffset
  | next {offset tmpOffset reclen offset' tmpOffset' : Nat} (len : load guest (offset + T.reclenAt) 2 = reclen)
    (some_ : reclen ≠ 0) (fits : offset + reclen ≤ count)
    (rest : Reaches guest (offset + reclen) (tmpOffset + expanded T reclen) offset' tmpOffset') :
    Reaches guest offset tmpOffset offset' tmpOffset'

/-- A record that is looked at has its length in the buffer, and one that is copied a name that fits. -/
def RecordFits (guest : Buffer) (offset tmpOffset : Nat) : Prop :=
  offset < count → offset + T.nameAt ≤ count ∧ ∀ reclen, load guest (offset + T.reclenAt) 2 = reclen → reclen ≠ 0 →
    offset + reclen ≤ count → T.nameAt < reclen ∧ tmpOffset + 18 + (reclen - T.nameAt) ≤ count

/-- What a record of the kernel's takes in the guest's buffer. -/
def grown (T : Dirent) (reclen : Nat) : Nat :=
  match T with
  | .linux_dirent => reclen + 8
  | .linux_dirent_32 => reclen

/-! ## The loops -/

theorem load_two_lt (b : Buffer) (offset : Nat) : load b offset 2 < 2 ^ 16 := by
  simp [load, List.range_succ]
  omega

theorem records_le (b : Buffer) {offset stop : Nat} {lengths : List Nat} (records : Records b offset lengths stop) :
    offset ≤ stop := by
  induction lengths generalizing offset with
  | nil => exact Nat.le_of_eq records
  | cons reclen lengths ih => exact Nat.le_trans (Nat.le_add_right ..) (ih records.2.2.2.2)

variable {T count}

theorem inside_append {log log' : Accesses} : Inside count (log ++ log') ↔ Inside count log ∧ Inside count log' := by
  simp [Inside, or_imp, forall_and]

theorem inside_singleton {a : Nat × Nat} : Inside count [a] ↔ a.1 + a.2 ≤ count := by
  simp [Inside]

/-- A record of the guest that is copied. -/
theorem copied_inside_iff {offset tmpOffset reclen : Nat} (bound : count < 2 ^ 32) (small : reclen < 2 ^ 16)
    (here : offset < count) (fits : offset + reclen ≤ count) :
    Inside count ([(offset + T.reclenAt, 2)] ++ [(offset, T.inoSize), (tmpOffset, 8), (offset + T.inoSize, T.inoSize),
        (tmpOffset + 8, 8), (tmpOffset + 16, 2), (offset + reclen - 1, 1), (tmpOffset + 18, 1),
        (offset + T.nameAt, min ((reclen + (2 ^ 64 - (T.nameAt + 1))) % 2 ^ 32) (count - offset)),
        (tmpOffset + 19, min ((reclen + (2 ^ 64 - (T.nameAt + 1))) % 2 ^ 32) (count - offset))]) ↔
      T.nameAt < reclen ∧ tmpOffset + 18 + (reclen - T.nameAt) ≤ count := by
  simp only [Inside, List.singleton_append, List.forall_mem_cons, List.not_mem_nil, false_implies, implies_true, and_true]
  cases T with
  | linux_dirent =>
    simp only [Dirent.nameAt, Dirent.reclenAt, Dirent.inoSize]
    omega
  | linux_dirent_32 =>
    simp only [Dirent.nameAt, Dirent.reclenAt, Dirent.inoSize]
    omega

theorem reaches_iff (guest : Buffer) {offset tmpOffset reclen offset' tmpOffset' : Nat}
    (len : load guest (offset + T.reclenAt) 2 = reclen) :
    Reaches T count guest offset tmpOffset offset' tmpOffset' ↔ (offset' = offset ∧ tmpOffset' = tmpOffset) ∨
      (reclen ≠ 0 ∧ offset + reclen ≤ count ∧
        Reaches T count guest (offset + reclen) (tmpOffset + expanded T reclen) offset' tmpOffset') := by
  constructor
  · intro reaches
    cases reaches with
    | here => exact .inl ⟨rfl, rfl⟩
    | next len' positive fits rest =>
      obtain rfl := len.symm.trans len'
      exact .inr ⟨positive, fits, rest⟩
  · rintro (⟨rfl, rfl⟩ | ⟨positive, fits, rest⟩)
    · exact .here ..
    · exact .next len positive fits rest

theorem recordFits_iff (guest : Buffer) {offset tmpOffset reclen : Nat} (here : offset < count)
    (len : load guest (offset + T.reclenAt) 2 = reclen) :
    RecordFits T count guest offset tmpOffset ↔ offset + T.nameAt ≤ count ∧
      (reclen ≠ 0 → offset + reclen ≤ count → T.nameAt < reclen ∧ tmpOffset + 18 + (reclen - T.nameAt) ≤ count) := by
  subst len
  simp [RecordFits, here]

/-- The copying stays inside just if every record that it comes to does. -/
theorem copyIn_spec (guest : Buffer) (bound : count < 2 ^ 32) (fuel : Nat) : ∀ (offset tmpOffset : Nat) (tmp : Buffer)
    (log : Accesses), 0 < fuel → count < offset + fuel → ∃ tmp' log',
      copyIn T count guest fuel offset tmpOffset tmp log = some (tmp', log ++ log') ∧ (Inside count log' ↔
        ∀ offset' tmpOffset', Reaches T count guest offset tmpOffset offset' tmpOffset' →
          RecordFits T count guest offset' tmpOffset') := by
  induction fuel with
  | zero => exact fun _ _ _ _ positive => absurd positive (Nat.lt_irrefl 0)
  | succ fuel ih =>
    intro offset tmpOffset tmp log _ enough
    have small := load_two_lt guest (offset + T.reclenAt)
    unfold copyIn
    generalize len : load guest (offset + T.reclenAt) 2 = reclen at small
    simp only [reaches_iff guest len, or_imp, forall_and, and_imp, forall_eq_apply_imp_iff, forall_eq]
    by_cases here : offset < count
    · rw [if_pos here, recordFits_iff guest here len]
      by_cases stops : reclen = 0 ∨ count < offset + reclen
      · rw [if_pos stops]
        refine ⟨tmp, [(offset + T.reclenAt, 2)], rfl, ?_⟩
        rw [inside_singleton]
        refine ⟨fun inside => ⟨⟨inside, ?_⟩, ?_⟩, fun fits => fits.1.1⟩
        · exact fun positive fits => absurd stops (by omega)
        · exact fun _ _ positive fits => absurd stops (by omega)
      · rw [if_neg stops]
        obtain ⟨tmp', log', ran, rest⟩ :=
          ih (offset + reclen) (tmpOffset + expanded T reclen) _ _ (by omega) (by omega)
        refine ⟨tmp', _, by rw [ran, List.append_assoc log, List.append_assoc log], ?_⟩
        have positive : reclen ≠ 0 := fun zero => stops (.inl zero)
        have fits : offset + reclen ≤ count := by omega
        rw [inside_append, copied_inside_iff bound small here fits, rest]
        simp only [positive, fits, ne_eq, not_false_eq_true, true_implies]
        refine and_congr_left fun _ => ⟨fun name => ⟨by omega, name⟩, And.right⟩
    · rw [if_neg here]
      refine ⟨tmp, [], by simp, ?_⟩
      refine iff_of_true (by simp [Inside]) ⟨fun there => absurd there here, fun _ _ positive fits => ?_⟩
      omega

theorem truncates_spec (tmp : Buffer) (stop : Nat) (lengths : List Nat) (fits : stop ≤ count) :
    ∀ (fuel tmpOffset : Nat) (log : Accesses), lengths.length < fuel → Records tmp tmpOffset lengths stop →
      ∃ overflow log', truncates T tmp stop fuel tmpOffset log = some (overflow, log ++ log') ∧ Inside count log' := by
  induction lengths with
  | nil =>
    rintro (_ | fuel) tmpOffset log enough records
    · cases enough
    · exact ⟨false, [], by simp [truncates, show tmpOffset = stop from records], by simp [Inside]⟩
  | cons reclen lengths ih =>
    rintro (_ | fuel) tmpOffset log enough ⟨len, -, long, -, records⟩
    · cases enough
    · have within := records_le tmp records
      unfold truncates
      rw [if_pos (by omega), len]
      split
      · exact ⟨true, _, rfl, by simp [Inside]; omega⟩
      · obtain ⟨overflow, log', ran, inside⟩ :=
          ih fuel _ (log ++ [(tmpOffset, 8), (tmpOffset + 16, 2)]) (by simpa using enough) records
        refine ⟨overflow, [(tmpOffset, 8), (tmpOffset + 16, 2)] ++ log', by rw [ran, List.append_assoc], ?_⟩
        refine inside_append.mpr ⟨?_, inside⟩
        simp only [Inside, List.forall_mem_cons, List.not_mem_nil, false_implies, implies_true, and_true]
        omega

theorem shrunk_eq {reclen : Nat} (eight : 8 ∣ reclen) (long : 24 ≤ reclen) (short : reclen ≤ 4120) :
    shrunk T reclen = grown T reclen := by
  cases T <;> simp only [shrunk, alignUp, Dirent.size, grown] <;> omega

theorem overflows_spec (T : Dirent) (tmp : Buffer) {stop : Nat} (lengths : List Nat) (fits : stop ≤ count) (fuel : Nat)
    (log : Accesses) (enough : lengths.length < fuel) (records : Records tmp 0 lengths stop) :
    ∃ overflow log', overflows T tmp stop fuel log = some (overflow, log ++ log') ∧ Inside count log' ∧
      (overflow = true → T = .linux_dirent_32) := by
  cases T with
  | linux_dirent => exact ⟨false, [], by simp [overflows, Dirent.inoSize], by simp [Inside], nofun⟩
  | linux_dirent_32 =>
    obtain ⟨overflow, log', ran, inside⟩ := truncates_spec tmp stop lengths fits fuel 0 log enough records
    exact ⟨overflow, log', by simpa [overflows, Dirent.inoSize] using ran, inside, fun _ => rfl⟩

/-- A record that is copied back is inside unless it has grown too far. -/
theorem returned_inside_iff {tmpOffset reclen : Nat} (offset : Nat) (eight : 8 ∣ reclen) (long : 24 ≤ reclen)
    (short : reclen ≤ 4120) (fits : tmpOffset + reclen ≤ count) (low : offset < 2 ^ 40) :
    Inside count ([(tmpOffset + 16, 2)] ++ [(tmpOffset, 8), (offset, T.inoSize),
        (tmpOffset + 8, if T.incrementOffset then 0 else 8), (offset + T.inoSize, T.inoSize), (offset + T.reclenAt, 2),
        (tmpOffset + 19, (reclen + (2 ^ 64 - 20)) % 2 ^ 64), (offset + T.nameAt, (reclen + (2 ^ 64 - 20)) % 2 ^ 64),
        (tmpOffset + 18, 1), ((offset + shrunk T reclen % 2 ^ 16 + (2 ^ 64 - 1)) % 2 ^ 64, 1)]) ↔
      offset + shrunk T reclen ≤ count := by
  rw [shrunk_eq eight long short]
  simp only [Inside, List.singleton_append, List.forall_mem_cons, List.not_mem_nil, false_implies, implies_true, and_true]
  cases T with
  | linux_dirent =>
    simp only [grown, Dirent.nameAt, Dirent.reclenAt, Dirent.inoSize, Dirent.incrementOffset, Bool.false_eq_true, if_false]
    omega
  | linux_dirent_32 =>
    simp only [grown, Dirent.nameAt, Dirent.reclenAt, Dirent.inoSize, Dirent.incrementOffset, if_true]
    omega

/-- The copying back stays inside just if the grown records do. -/
theorem copyOut_spec (bound : count < 2 ^ 32) (tmp : Buffer) (stop : Nat) (lengths : List Nat) (fits : stop ≤ count) :
    ∀ (fuel tmpOffset offset index : Nat) (guest : Buffer) (log : Accesses), lengths.length < fuel →
      Records tmp tmpOffset lengths stop → offset ≤ 2 * tmpOffset → ∃ result guest' log',
        copyOut T tmp stop fuel tmpOffset offset index guest log = some (result, guest', log ++ log') ∧
          (Inside count log' ↔ lengths = [] ∨ offset + (lengths.map (grown T)).sum ≤ count) := by
  induction lengths with
  | nil =>
    rintro (_ | fuel) tmpOffset offset index guest log enough records low
    · cases enough
    · exact ⟨offset, guest, [], by simp [copyOut, show tmpOffset = stop from records], by simp [Inside]⟩
  | cons reclen lengths ih =>
    rintro (_ | fuel) tmpOffset offset index guest log enough ⟨len, eight, long, short, records⟩ low
    · cases enough
    · have within := records_le tmp records
      have larger : grown T reclen ≤ 2 * reclen := by cases T <;> simp only [grown] <;> omega
      have here := returned_inside_iff (T := T) offset eight long short (Nat.le_trans within fits) (by omega)
      unfold copyOut
      rw [if_pos (by omega), len, if_neg (by omega)]
      obtain ⟨result, guest', log', ran, rest⟩ := ih fuel (tmpOffset + reclen) (offset + shrunk T reclen) (index + 1) _ _
        (by simpa using enough) records (by rw [shrunk_eq eight long short]; omega)
      refine ⟨result, guest', _, by rw [ran, List.append_assoc log, List.append_assoc log], ?_⟩
      rw [inside_append, here, rest, shrunk_eq eight long short, List.map_cons, List.sum_cons]
      constructor
      · rintro ⟨first, rfl | others⟩
        · exact .inr (by simpa using first)
        · exact .inr (by omega)
      · rintro (nil | all)
        · cases nil
        · exact ⟨by omega, .inr (by omega)⟩

theorem grown_fits {b : Buffer} {offset stop : Nat} {lengths : List Nat} (records : Records b offset lengths stop) :
    (lengths.map (grown .linux_dirent_32)).sum = stop - offset := by
  induction lengths generalizing offset with
  | nil => simp [show offset = stop from records]
  | cons reclen lengths ih =>
    have within := records_le b records.2.2.2.2
    rw [List.map_cons, List.sum_cons, ih records.2.2.2.2, grown]
    omega

/-- The emulation ends, and stays inside its buffers exactly when the guest's records that it comes to do, and the kernel's
as the guest has them. -/
theorem getDents_inside_iff (T : Dirent) (count : BitVec 32) (guest : Buffer) (bytes : List (BitVec 8))
    (lengths : List Nat) (answer : WellFormed count.toNat bytes lengths) :
    ∃ fuel outcome, getDentsEmulation T count.toNat fuel guest (.ok bytes) = some outcome ∧
      (outcome.Inside count.toNat ↔ count = 0 ∨
        ((∀ offset tmpOffset, Reaches T count.toNat guest 0 0 offset tmpOffset →
          RecordFits T count.toNat guest offset tmpOffset) ∧ (lengths.map (grown T)).sum ≤ count.toNat)) := by
  obtain ⟨fits, records⟩ := answer
  have bound := count.isLt
  let fuel := count.toNat + lengths.length + 1
  obtain ⟨tmp, log, copied, inside⟩ := copyIn_spec (T := T) guest bound fuel 0 0 (fun _ => 0) []
    (Nat.succ_pos _) (by omega)
  have records := records tmp
  obtain ⟨overflow, log', checked, inside', narrow⟩ := overflows_spec T (filled bytes tmp) lengths fits fuel log
    (by omega) records
  obtain ⟨result, guest', log'', copiedBack, inside''⟩ := copyOut_spec (T := T) bound (filled bytes tmp) bytes.length
    lengths fits fuel 0 0 1 guest (log ++ log') (by omega) records (Nat.le_refl _)
  by_cases empty : count = 0
  · subst empty
    exact ⟨0, .thrown, rfl, iff_of_true trivial (.inl rfl)⟩
  have nonzero : count.toNat ≠ 0 := fun zero => empty (BitVec.eq_of_toNat_eq zero)
  refine ⟨fuel, if overflow then .returned (-75) guest (log ++ log') else .returned result guest' (log ++ log' ++ log''),
    ?_, ?_⟩
  · rw [getDentsEmulation, if_neg nonzero, copied, List.nil_append]
    simp only [Option.bind_eq_bind, Option.bind_some, checked]
    cases overflow with
    | true => rfl
    | false => simp [copiedBack]
  · rw [← inside]
    simp only [empty, false_or]
    cases overflow with
    | true =>
      obtain rfl := narrow rfl
      have sum := grown_fits records
      simp only [if_true, Outcome.Inside, inside_append, inside', and_true]
      exact (and_iff_left (by omega)).symm
    | false =>
      simp only [Bool.false_eq_true, if_false, Outcome.Inside, inside_append, inside', and_true, inside'', Nat.zero_add]
      refine and_congr_right fun _ => ⟨?_, .inr⟩
      rintro (rfl | all)
      · exact Nat.zero_le _
      · exact all

def oneRecord : List (BitVec 8) := List.replicate 16 0 ++ 24 :: List.replicate 7 0

theorem oneRecord_wellFormed {count : Nat} (room : 24 ≤ count) : WellFormed count oneRecord [24] :=
  ⟨room, fun _ => ⟨rfl, by decide, by decide, by decide, rfl⟩⟩

/-- Two records of an earlier call, of 24 and 16 bytes, and what is no record. -/
def staleRecords : Buffer := fun a => if a = 8 then 24 else if a = 32 then 16 else if a = 9 ∨ a = 33 then 0 else 65

/-- The stale records are expanded in the temporary buffer, and the kernel's come in their place. -/
theorem getDents_inside_stale : ∃ fuel outcome,
    getDentsEmulation .linux_dirent_32 (64#32).toNat fuel staleRecords (.ok (oneRecord ++ oneRecord)) = some outcome ∧
      outcome.Inside (64#32).toNat := by
  have wellFormed : WellFormed (64#32).toNat (oneRecord ++ oneRecord) [24, 24] :=
    ⟨by decide, fun _ => ⟨rfl, by decide, by decide, by decide, rfl, by decide, by decide, by decide, rfl⟩⟩
  obtain ⟨fuel, outcome, ran, inside⟩ :=
    getDents_inside_iff .linux_dirent_32 64 staleRecords (oneRecord ++ oneRecord) [24, 24] wellFormed
  refine ⟨fuel, outcome, ran, inside.mpr (.inr ⟨fun offset tmpOffset reaches => ?_, by decide⟩)⟩
  have fits : ∀ {offset tmpOffset reclen : Nat}, load staleRecords (offset + Dirent.linux_dirent_32.reclenAt) 2 = reclen →
      offset + 10 ≤ 64 → (offset + reclen ≤ 64 → 10 < reclen ∧ tmpOffset + 18 + (reclen - 10) ≤ 64) →
        RecordFits .linux_dirent_32 64 staleRecords offset tmpOffset := by
    rintro offset tmpOffset _ rfl header name _
    exact ⟨header, fun reclen len _ within => len ▸ name (len.symm ▸ within)⟩
  have first : load staleRecords (0 + Dirent.linux_dirent_32.reclenAt) 2 = 24 := rfl
  have second : load staleRecords (0 + 24 + Dirent.linux_dirent_32.reclenAt) 2 = 16 := rfl
  have third : load staleRecords (0 + 24 + 16 + Dirent.linux_dirent_32.reclenAt) 2 = 0x4141 := rfl
  rcases (reaches_iff staleRecords first).1 reaches with ⟨rfl, rfl⟩ | ⟨-, -, reaches⟩
  · exact fits first (by decide) (by decide)
  rcases (reaches_iff staleRecords second).1 reaches with ⟨rfl, rfl⟩ | ⟨-, -, reaches⟩
  · exact fits second (by decide) (by decide)
  rcases (reaches_iff staleRecords third).1 reaches with ⟨rfl, rfl⟩ | ⟨-, within, -⟩
  · exact fits third (by decide) (by decide)
  · exact absurd within (by decide)

/-- One record fills the temporary buffer, and 8 bytes more of the guest's are written. -/
theorem getDents_grows : ¬∀ (T : Dirent) (count : BitVec 32) (guest : Buffer) (bytes : List (BitVec 8))
    (lengths : List Nat), WellFormed count.toNat bytes lengths → ∀ fuel outcome,
      getDentsEmulation T count.toNat fuel guest (.ok bytes) = some outcome → outcome.Inside count.toNat := by
  intro all
  have inside := all .linux_dirent 24 (fun _ => 0) oneRecord [24] (oneRecord_wellFormed (by decide)) 2 _ rfl
  exact absurd (inside (31, 1) (by decide)) (by decide)

end FexEmu.LinuxSyscalls.GetDents
