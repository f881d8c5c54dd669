import FexEmu.LinuxSyscalls.GetDents
/-!
# What the guest finds after `getdents`

The last byte of a record of the kernel's is not taken for one of the name. Where it is the terminator, the guest's buffer
keeps the byte that it had there.
-/
namespace FexEmu.LinuxSyscalls.GetDents

/-- A directory entry. -/
structure Entry where
  ino : BitVec 64
  type : BitVec 8
  name : List (BitVec 8)
  noNul : ∀ x ∈ name, x ≠ 0
  length : 1 ≤ name.length ∧ name.length ≤ 255

namespace Entry

/-- With the 19 bytes before the name, the terminator and up to 7 bytes of padding. -/
def reclen (e : Entry) : Nat := (e.name.length + 27) / 8 * 8

/-- The kernel has filled up the last 8 bytes with the terminator. -/
def Tight (e : Entry) : Prop := 8 ∣ e.name.length + 20

end Entry

/-- The name, with its NUL, is at a. -/
def CString (b : Buffer) (a : Nat) (name : List (BitVec 8)) : Prop := ∀ i ≤ name.length, b (a + i) = name[i]?.getD 0

/-- A record of the kernel's. -/
def Stored (b : Buffer) (offset : Nat) (e : Entry) (reclen : Nat) : Prop :=
  reclen = e.reclen ∧ load b (offset + 16) 2 = reclen ∧ load b offset 8 = e.ino.toNat ∧ b (offset + 18) = e.type ∧
    CString b (offset + 19) e.name

/-- A record of the guest's: the type is in its last byte, behind the terminator of the name. -/
def Found (T : Dirent) (b : Buffer) (offset : Nat) (e : Entry) (reclen : Nat) : Prop :=
  T.nameAt + e.name.length + 1 < reclen ∧ load b (offset + T.reclenAt) 2 = reclen ∧ load b offset T.inoSize = e.ino.toNat ∧
    b (offset + reclen - 1) = e.type ∧ CString b (offset + T.nameAt) e.name

/-- A walk from record to record. -/
def Lists (record : Nat → Entry → Nat → Prop) : Nat → List Entry → Nat → Prop
  | offset, [], stop => offset = stop
  | offset, e :: entries, stop => ∃ reclen, record offset e reclen ∧ Lists record (offset + reclen) entries stop

/-- The kernel fills the buffer with these entries, whatever was in it. -/
def Answer (count : Nat) (bytes : List (BitVec 8)) (entries : List Entry) : Prop :=
  bytes.length ≤ count ∧ ∀ tmp, Lists (Stored (filled bytes tmp)) 0 entries bytes.length

/-- The guest's record has room for the inode numbers. -/
def Fits (T : Dirent) (entries : List Entry) : Prop := ∀ e ∈ entries, e.ino.toNat < 256 ^ T.inoSize

def Faithful (T : Dirent) (guest : Buffer) (entries : List Entry) : Outcome → Prop
  | .thrown => False
  | .returned result guest' _ => (Fits T entries → ∃ stop : Nat, result = stop ∧ Lists (Found T guest') 0 entries stop) ∧
    (¬Fits T entries → result = -75 ∧ guest' = guest)

/-- Where no terminator is copied the guest's buffer has a zero. -/
def Terminates (T : Dirent) (guest : Buffer) : Nat → List Entry → Prop
  | _, [] => True
  | offset, e :: entries => (e.Tight → guest (offset + T.nameAt + e.name.length) = 0) ∧
    Terminates T guest (offset + grown T e.reclen) entries

/-! ## Loads and stores -/

theorem load_succ (b : Buffer) (offset n : Nat) :
    load b offset (n + 1) = (b offset).toNat + 256 * load b (offset + 1) n := by
  simp [load, List.range_succ_eq_map, List.foldr_map, Nat.add_assoc, Nat.add_comm 1]

theorem load_congr {b b' : Buffer} {offset n : Nat} (h : ∀ i < n, b (offset + i) = b' (offset + i)) :
    load b offset n = load b' offset n := by
  induction n generalizing offset with
  | zero => rfl
  | succ n ih =>
    rw [load_succ, load_succ, show b offset = b' offset from h 0 (Nat.succ_pos n), ih]
    intro i hi
    have := h (i + 1) (Nat.succ_lt_succ hi)
    rwa [Nat.add_comm i, ← Nat.add_assoc] at this

theorem load_ofNat {b : Buffer} {offset n v : Nat} (h : ∀ i < n, b (offset + i) = BitVec.ofNat 8 (v / 256 ^ i)) :
    load b offset n = v % 256 ^ n := by
  induction n generalizing offset v with
  | zero => simp [load, Nat.mod_one]
  | succ n ih =>
    have first := h 0 (Nat.succ_pos n)
    rw [Nat.pow_zero, Nat.div_one, Nat.add_zero] at first
    have rest : load b (offset + 1) n = v / 256 % 256 ^ n := by
      apply ih
      intro i hi
      rw [Nat.add_assoc, Nat.add_comm 1, h (i + 1) (Nat.succ_lt_succ hi), Nat.div_div_eq_div_mul, pow_succ']
    rw [load_succ, first, rest, BitVec.toNat_ofNat, show 256 ^ (n + 1) = 2 ^ 8 * 256 ^ n from pow_succ' ..]
    exact Nat.mod_mul.symm

/-! ## A record -/

/-- The guest's buffer after a record that is copied back. -/
def recordBack (T : Dirent) (guest tmp : Buffer) (tmpOffset offset off reclen : Nat) : Buffer :=
  store (memcpy (store (store (store guest offset T.inoSize (load tmp tmpOffset 8)) (offset + T.inoSize) T.inoSize off)
    (offset + T.reclenAt) 2 (shrunk T reclen)) (offset + T.nameAt) tmp (tmpOffset + 19) ((reclen + (2 ^ 64 - 20)) % 2 ^ 64))
    ((offset + shrunk T reclen % 2 ^ 16 + (2 ^ 64 - 1)) % 2 ^ 64) 1 (load tmp (tmpOffset + 18) 1)

theorem store_in {b : Buffer} {a offset n v : Nat} (h : offset ≤ a ∧ a < offset + n) :
    store b offset n v a = BitVec.ofNat 8 (v / 256 ^ (a - offset)) :=
  if_pos h

theorem store_out {b : Buffer} {a offset n v : Nat} (h : ¬(offset ≤ a ∧ a < offset + n)) : store b offset n v a = b a :=
  if_neg h

theorem memcpy_in {b source : Buffer} {a offset begin n : Nat} (h : offset ≤ a ∧ a < offset + n) :
    memcpy b offset source begin n a = source (begin + (a - offset)) :=
  if_pos h

theorem memcpy_out {b source : Buffer} {a offset begin n : Nat} (h : ¬(offset ≤ a ∧ a < offset + n)) :
    memcpy b offset source begin n a = b a :=
  if_neg h

theorem reclen_bounds (e : Entry) : 8 ∣ e.reclen ∧ 24 ≤ e.reclen ∧ e.reclen ≤ 4120 ∧ e.name.length + 20 ≤ e.reclen ∧
    (e.Tight ↔ e.reclen = e.name.length + 20) := by
  have length := e.length
  unfold Entry.Tight Entry.reclen
  omega

theorem layout (T : Dirent) (reclen : Nat) : T.nameAt = T.reclenAt + 2 ∧ T.reclenAt = 2 * T.inoSize ∧
    (T.inoSize = 8 ∧ grown T reclen = reclen + 8 ∨ T.inoSize = 4 ∧ grown T reclen = reclen) := by
  cases T <;> exact ⟨rfl, rfl, by simp [Dirent.inoSize, grown]⟩

section
variable {T : Dirent} (guest : Buffer) {tmp : Buffer} (tmpOffset : Nat) {offset : Nat} (off : Nat) {e : Entry}

theorem recordBack_eq (low : offset < 2 ^ 40) : recordBack T guest tmp tmpOffset offset off e.reclen =
    store (memcpy (store (store (store guest offset T.inoSize (load tmp tmpOffset 8)) (offset + T.inoSize) T.inoSize off)
      (offset + T.reclenAt) 2 (grown T e.reclen)) (offset + T.nameAt) tmp (tmpOffset + 19) (e.reclen - 20))
      (offset + grown T e.reclen - 1) 1 (load tmp (tmpOffset + 18) 1) := by
  obtain ⟨eight, long, short, -⟩ := reclen_bounds e
  have layout := layout T e.reclen
  rw [recordBack, shrunk_eq eight long short, show (e.reclen + (2 ^ 64 - 20)) % 2 ^ 64 = e.reclen - 20 by omega,
    show (offset + grown T e.reclen % 2 ^ 16 + (2 ^ 64 - 1)) % 2 ^ 64 = offset + grown T e.reclen - 1 by omega]

theorem recordBack_outside (low : offset < 2 ^ 40) {a : Nat} (h : a < offset ∨ offset + grown T e.reclen ≤ a) :
    recordBack T guest tmp tmpOffset offset off e.reclen a = guest a := by
  obtain ⟨-, long, -⟩ := reclen_bounds e
  have layout := layout T e.reclen
  rw [recordBack_eq _ _ _ low, store_out (by omega), memcpy_out (by omega), store_out (by omega), store_out (by omega),
    store_out (by omega)]

theorem recordBack_length (low : offset < 2 ^ 40) :
    load (recordBack T guest tmp tmpOffset offset off e.reclen) (offset + T.reclenAt) 2 = grown T e.reclen := by
  obtain ⟨-, long, short, -⟩ := reclen_bounds e
  have layout := layout T e.reclen
  rw [recordBack_eq _ _ _ low, load_ofNat fun i hi => by
    rw [store_out (by omega), memcpy_out (by omega), store_in (by omega), Nat.add_sub_cancel_left]]
  omega

/-- A record is found again just if its terminator is copied or there already. -/
theorem recordBack_found (low : offset < 2 ^ 40) (stored : Stored tmp tmpOffset e e.reclen)
    (fits : e.ino.toNat < 256 ^ T.inoSize) :
    Found T (recordBack T guest tmp tmpOffset offset off e.reclen) offset e (grown T e.reclen) ↔
      (e.Tight → guest (offset + T.nameAt + e.name.length) = 0) := by
  obtain ⟨eight, long, short, room, tight⟩ := reclen_bounds e
  have layout := layout T e.reclen
  obtain ⟨-, -, ino, type, name⟩ := stored
  have inode : load (recordBack T guest tmp tmpOffset offset off e.reclen) offset T.inoSize = e.ino.toNat := by
    rw [recordBack_eq _ _ _ low, load_ofNat fun i hi => by
      rw [store_out (by omega), memcpy_out (by omega), store_out (by omega), store_out (by omega), store_in (by omega),
        Nat.add_sub_cancel_left], ino, Nat.mod_eq_of_lt fits]
  have kind : recordBack T guest tmp tmpOffset offset off e.reclen (offset + grown T e.reclen - 1) = e.type := by
    rw [recordBack_eq _ _ _ low, store_in (by omega), Nat.sub_self, ← type]
    simp [load]
  have byte : ∀ i ≤ e.name.length, recordBack T guest tmp tmpOffset offset off e.reclen (offset + T.nameAt + i) =
      if e.reclen = e.name.length + 20 ∧ i = e.name.length then guest (offset + T.nameAt + i) else e.name[i]?.getD 0 := by
    intro i hi
    rw [recordBack_eq _ _ _ low, store_out (by omega)]
    split_ifs with last
    · rw [memcpy_out (by omega), store_out (by omega), store_out (by omega), store_out (by omega)]
    · rw [memcpy_in (by omega), Nat.add_sub_cancel_left, name i hi]
  rw [tight]
  constructor
  · rintro ⟨-, -, -, -, string⟩ closed
    have := string e.name.length (Nat.le_refl _)
    rwa [byte _ (Nat.le_refl _), if_pos ⟨closed, rfl⟩, List.getElem?_eq_none (Nat.le_refl _)] at this
  · intro zero
    refine ⟨by omega, recordBack_length _ _ _ low, inode, kind, fun i hi => ?_⟩
    rw [byte i hi]
    split_ifs with last
    · obtain ⟨closed, rfl⟩ := last
      rw [zero closed, List.getElem?_eq_none (Nat.le_refl _)]
      rfl
    · rfl

end

variable {T : Dirent} {guest tmp : Buffer} {tmpOffset offset off : Nat} {e : Entry}

theorem Found.congr {b b' : Buffer} {reclen : Nat} (h : Found T b offset e reclen)
    (same : ∀ a < offset + reclen, b a = b' a) : Found T b' offset e reclen := by
  obtain ⟨room, length, ino, type, name⟩ := h
  have layout := layout T reclen
  refine ⟨room, ?_, ?_, ?_, fun i hi => ?_⟩
  · rw [← length]
    exact load_congr fun i hi => (same _ (by omega)).symm
  · rw [← ino]
    exact load_congr fun i hi => (same _ (by omega)).symm
  · rw [← type]
    exact (same _ (by omega)).symm
  · rw [← name i hi]
    exact (same _ (by omega)).symm

/-! ## The loops -/

theorem lists_reclen {entries : List Entry} {stop : Nat} (h : Lists (Stored tmp) tmpOffset entries stop) :
    Records tmp tmpOffset (entries.map Entry.reclen) stop := by
  induction entries generalizing tmpOffset with
  | nil => exact h
  | cons e entries ih =>
    obtain ⟨_, ⟨rfl, length, -⟩, rest⟩ := h
    obtain ⟨eight, long, short, -⟩ := reclen_bounds e
    exact ⟨length, eight, long, short, ih rest⟩

theorem truncates_iff {entries : List Entry} {stop fuel : Nat} (enough : entries.length < fuel) (log : Accesses)
    (h : Lists (Stored tmp) tmpOffset entries stop) : ∃ overflow log',
      truncates T tmp stop fuel tmpOffset log = some (overflow, log') ∧ (overflow = false ↔ Fits T entries) := by
  induction entries generalizing fuel tmpOffset log with
  | nil =>
    obtain ⟨fuel, rfl⟩ := Nat.exists_eq_succ_of_ne_zero (Nat.ne_of_gt enough)
    exact ⟨false, log, by simp [truncates, show tmpOffset = stop from h], by simp [Fits]⟩
  | cons e entries ih =>
    have records := lists_reclen h
    obtain ⟨_, ⟨rfl, length, ino, -⟩, rest⟩ := h
    obtain ⟨fuel, rfl⟩ := Nat.exists_eq_succ_of_ne_zero (Nat.ne_of_gt (Nat.zero_lt_of_lt enough))
    have behind := records_le tmp records.2.2.2.2
    have long := (reclen_bounds e).2.1
    have fits : Fits T (e :: entries) ↔ e.ino.toNat < 256 ^ T.inoSize ∧ Fits T entries := List.forall_mem_cons
    unfold truncates
    rw [if_pos (by omega), ino, length, fits]
    split_ifs with large
    · exact ⟨true, _, rfl, by simpa using fun small => absurd (Nat.mod_eq_of_lt small) large⟩
    · obtain ⟨overflow, log', ran, rest⟩ := ih (Nat.lt_of_succ_lt_succ enough) _ rest
      refine ⟨overflow, log', ran, rest.trans (and_iff_right ?_).symm⟩
      rw [← not_not.mp large]
      exact Nat.mod_lt _ (by positivity)

theorem overflows_iff {entries : List Entry} {stop fuel : Nat} (enough : entries.length < fuel) (log : Accesses)
    (h : Lists (Stored tmp) 0 entries stop) :
    ∃ overflow log', overflows T tmp stop fuel log = some (overflow, log') ∧ (overflow = false ↔ Fits T entries) := by
  cases T with
  | linux_dirent => exact ⟨false, log, rfl, iff_of_true rfl fun e _ => e.ino.isLt⟩
  | linux_dirent_32 => exact truncates_iff enough log h

/-- `original` is the guest's buffer before the loop, which the records that are still to come are written to. -/
theorem copyOut_iff {original : Buffer} {count stop : Nat} (bound : count < 2 ^ 32) (within : stop ≤ count)
    (entries : List Entry) :
    ∀ (fuel tmpOffset offset index : Nat) (guest : Buffer) (log : Accesses), entries.length < fuel →
      Lists (Stored tmp) tmpOffset entries stop → offset ≤ 2 * tmpOffset → Fits T entries →
      (∀ a, offset ≤ a → guest a = original a) → ∃ result guest' log',
        copyOut T tmp stop fuel tmpOffset offset index guest log = some (result, guest', log') ∧
          (∀ a < offset, guest' a = guest a) ∧
          (Lists (Found T guest') offset entries result ↔ Terminates T original offset entries) := by
  induction entries with
  | nil =>
    rintro (_ | fuel) tmpOffset offset index guest log enough h low fits same
    · cases enough
    · refine ⟨offset, guest, log, by simp [copyOut, show tmpOffset = stop from h], fun _ _ => rfl, ?_⟩
      simp [Lists, Terminates]
  | cons e entries ih =>
    rintro (_ | fuel) tmpOffset offset index guest log enough h low fits same
    · cases enough
    · have records := lists_reclen h
      obtain ⟨_, stored, rest⟩ := h
      obtain rfl := stored.1
      have behind := records_le tmp records.2.2.2.2
      obtain ⟨eight, long, short, -⟩ := reclen_bounds e
      have larger := layout T e.reclen
      have shrinks := shrunk_eq (T := T) eight long short
      let off := if T.incrementOffset then index else load tmp (tmpOffset + 8) 8
      have small : offset < 2 ^ 40 := by omega
      have outside : ∀ a, a < offset ∨ offset + grown T e.reclen ≤ a →
          recordBack T guest tmp tmpOffset offset off e.reclen a = guest a := fun _ => recordBack_outside _ _ _ small
      unfold copyOut
      rw [if_pos (by omega), stored.2.1, if_neg (by omega)]
      -- later records are stored behind this one and leave it alone
      obtain ⟨result, guest', log', ran, frame, rest⟩ := ih fuel (tmpOffset + e.reclen) (offset + shrunk T e.reclen)
        (index + 1) (recordBack T guest tmp tmpOffset offset off e.reclen) _ (Nat.lt_of_succ_lt_succ enough) rest (by omega)
        (fun e he => fits e (List.mem_cons_of_mem _ he)) (fun a ha => by rw [outside a (.inr (by omega)), same a (by omega)])
      refine ⟨result, guest', log', ran, fun a ha => by rw [frame a (by omega), outside a (.inl ha)], ?_⟩
      rw [shrinks] at frame rest
      have found := recordBack_found guest tmpOffset off small stored (fits e List.mem_cons_self)
      rw [same _ (by omega)] at found
      constructor
      · rintro ⟨reclen, here, others⟩
        have length : reclen = grown T e.reclen := by
          rw [← here.2.1, ← recordBack_length guest tmpOffset off small]
          exact load_congr fun i hi => frame _ (by omega)
        subst length
        exact ⟨found.mp (here.congr frame), rest.mp others⟩
      · rintro ⟨zero, others⟩
        exact ⟨_, (found.mpr zero).congr fun a ha => (frame a ha).symm, rest.mpr others⟩

/-- The guest finds the kernel's entries exactly when the buffer is not empty and, unless an inode does not fit, each
terminator that is not copied is there already. -/
theorem getDents_faithful_iff (T : Dirent) (count : BitVec 32) (guest : Buffer) (bytes : List (BitVec 8))
    (entries : List Entry) (answer : Answer count.toNat bytes entries) :
    ∃ fuel outcome, getDentsEmulation T count.toNat fuel guest (.ok bytes) = some outcome ∧
      (Faithful T guest entries outcome ↔ count ≠ 0 ∧ (Fits T entries → Terminates T guest 0 entries)) := by
  obtain ⟨within, stored⟩ := answer
  by_cases empty : count = 0
  · subst empty
    exact ⟨0, .thrown, rfl, iff_of_false not_false fun h => h.1 rfl⟩
  have nonzero : count.toNat ≠ 0 := fun zero => empty (BitVec.eq_of_toNat_eq zero)
  let fuel := count.toNat + entries.length + 1
  obtain ⟨tmp, log, copied, -⟩ := copyIn_spec (T := T) guest count.isLt fuel 0 0 (fun _ => 0) [] (Nat.succ_pos _) (by omega)
  have enough : entries.length < fuel := by omega
  obtain ⟨overflow, log', checked, fits⟩ := overflows_iff (T := T) enough ([] ++ log) (stored tmp)
  refine ⟨fuel, ?_⟩
  rw [getDentsEmulation, if_neg nonzero, copied]
  simp only [Option.bind_eq_bind, Option.bind_some, checked]
  cases overflow with
  | true =>
    have large : ¬Fits T entries := fun small => Bool.noConfusion (fits.mpr small)
    refine ⟨_, rfl, iff_of_true ⟨fun small => absurd small large, fun _ => ⟨rfl, rfl⟩⟩ ⟨empty, ?_⟩⟩
    exact fun small => absurd small large
  | false =>
    have small := fits.mp rfl
    obtain ⟨result, guest', log'', ran, -, found⟩ := copyOut_iff count.isLt within entries fuel 0 0 1 guest log' enough
      (stored tmp) (Nat.le_refl _) small fun _ _ => rfl
    refine ⟨.returned result guest' log'', by simp [ran], ?_⟩
    rw [← found]
    constructor
    · rintro ⟨faithful, -⟩
      obtain ⟨stop, same, lists⟩ := faithful small
      exact ⟨empty, fun _ => Int.ofNat.inj same ▸ lists⟩
    · rintro ⟨-, lists⟩
      exact ⟨fun _ => ⟨result, rfl, lists small⟩, fun large => absurd small large⟩

/-- A file with a name of as many letters. -/
def letters (n : Nat) (h : 1 ≤ n ∧ n ≤ 255) : Entry :=
  ⟨0, 0, List.replicate n 97, fun _ hx => (List.eq_of_mem_replicate hx).symm ▸ by decide, by simpa using h⟩

/-- Its record, if it takes 24 bytes. -/
def record (n : Nat) : List (BitVec 8) :=
  List.replicate 16 0 ++ 24 :: 0 :: 0 :: (List.replicate n 97 ++ List.replicate (5 - n) 0)

theorem record_answer {n : Nat} (h : n = 1 ∨ n = 4) : Answer 32 (record n) [letters n (by omega)] := by
  refine ⟨by rcases h with rfl | rfl <;> decide, fun tmp => ⟨24, ⟨?_, ?_, ?_, ?_, fun i hi => ?_⟩, ?_⟩⟩
  · rcases h with rfl | rfl <;> decide
  · simp [load, filled, record, List.range_succ]
  · simp [load, filled, record, letters, List.range_succ]
  · simp [filled, record, letters]
  · rcases h with rfl | rfl <;> (simp only [letters, List.length_replicate] at hi; interval_cases i <;> rfl)
  · rcases h with rfl | rfl <;> rfl

theorem getDents_faithful_letter : ∃ fuel outcome,
    getDentsEmulation .linux_dirent (32#32).toNat fuel (fun _ => 1) (.ok (record 1)) = some outcome ∧
      Faithful .linux_dirent (fun _ => 1) [letters 1 (by decide)] outcome := by
  obtain ⟨fuel, outcome, ran, faithful⟩ := getDents_faithful_iff .linux_dirent 32 (fun _ => 1) (record 1)
    [letters 1 (by decide)] (record_answer (.inl rfl))
  refine ⟨fuel, outcome, ran, faithful.mpr ⟨by decide, fun _ => ⟨fun tight => ?_, trivial⟩⟩⟩
  exact absurd tight (by decide : ¬8 ∣ 21)

/-- A name of four letters goes on with what was in the guest's buffer. -/
theorem getDents_unterminated : ¬∀ (T : Dirent) (count : BitVec 32) (guest : Buffer) (bytes : List (BitVec 8))
    (entries : List Entry), Answer count.toNat bytes entries → ∀ fuel outcome,
      getDentsEmulation T count.toNat fuel guest (.ok bytes) = some outcome → Faithful T guest entries outcome := by
  intro all
  obtain ⟨fits, -⟩ :=
    all .linux_dirent 32 (fun _ => 255) (record 4) [letters 4 (by decide)] (record_answer (.inr rfl)) 2 _ rfl
  obtain ⟨stop, -, reclen, ⟨-, -, -, -, string⟩, -⟩ := fits fun e _ => e.ino.isLt
  exact absurd (string 4 (Nat.le_refl _)) (by decide)

end FexEmu.LinuxSyscalls.GetDents
