import Mathlib.Tactic
/-!
# The GDB server's fields and memory packets

`GdbServer.cpp`: the hexadecimal fields of a packet and the memory packets, over what the server uses of an
`std::istream`.
-/
namespace FexEmu.Core.GdbServer

abbrev Byte := BitVec 8

/-- An istream of hexadecimal digits. -/
structure Stream where
  rest : List Byte
  eof : Bool := false
  fail : Bool := false
  deriving DecidableEq, Repr

namespace Stream

def good (s : Stream) : Bool := !s.eof && !s.fail

/-- `peek()`: the next character without taking it, -1 at the end. -/
def peek (s : Stream) : Int × Stream :=
  if s.good then
    match s.rest with
    | c :: _ => (c.toNat, s)
    | [] => (-1, { s with eof := true })
  else (-1, { s with fail := true })

/-- `get()`: the next character, -1 at the end. -/
def get (s : Stream) : Int × Stream :=
  if s.good then
    match s.rest with
    | c :: rest => (c.toNat, { s with rest })
    | [] => (-1, { s with eof := true, fail := true })
  else (-1, { s with fail := true })

/-- `read(buffer, n)`: the characters it stores. -/
def read (s : Stream) (n : Nat) : List Byte × Stream :=
  if s.good then
    (s.rest.take n, ⟨s.rest.drop n, s.rest.length < n, s.rest.length < n⟩)
  else ([], { s with fail := true })

end Stream

def isspace (c : Byte) : Bool := c = 0x20#8 || (9 ≤ c.toNat && c.toNat ≤ 13)

def hexDigit? (c : Byte) : Option Nat :=
  if 48 ≤ c.toNat ∧ c.toNat ≤ 57 then some (c.toNat - 48)
  else if 97 ≤ c.toNat ∧ c.toNat ≤ 102 then some (c.toNat - 87)
  else if 65 ≤ c.toNat ∧ c.toNat ≤ 70 then some (c.toNat - 55)
  else none

/-- The value of the hexadecimal digits the text begins with. -/
def hexValue : List Byte → Nat → Nat
  | [], v => v
  | c :: text, v =>
    match hexDigit? c with
    | some d => hexValue text (16 * v + d)
    | none => v

/-- `hexString`, of which the third character stays NUL. -/
abbrev HexString := Byte × Byte

def HexString.store (hexString : HexString) : List Byte → HexString
  | [] => hexString
  | [a] => (a, hexString.2)
  | a :: b :: _ => (a, b)

/-- `strtoul(hexString, nullptr, 16)`: two characters are too few for a prefix `0x` or an overflow. -/
def strtoul (hexString : HexString) : BitVec 64 :=
  let text := [hexString.1, hexString.2].dropWhile isspace
  if text.head? = some 0x2d#8 then -BitVec.ofNat 64 (hexValue text.tail 0)
  else if text.head? = some 0x2b#8 then BitVec.ofNat 64 (hexValue text.tail 0)
  else BitVec.ofNat 64 (hexValue text 0)

/-- The `while` of `hexstring`; the fuel runs out where the loop does not end. -/
def hexstringLoop (delm : Int) : Nat → Stream → HexString → List Byte → Option (List Byte × Stream)
  | 0, _, _, _ => none
  | fuel + 1, ss, hexString, ret =>
    let (next, ss) := ss.peek
    if next = delm then some (ret, ss)
    else
      let (chars, ss) := ss.read 2
      let hexString := hexString.store chars
      hexstringLoop delm fuel ss hexString (ret ++ [(strtoul hexString).setWidth 8])

def hexstring (fuel : Nat) (ss : Stream) (delm : Int) : Option (List Byte × Stream) := do
  let (ret, ss) ← hexstringLoop delm fuel ss (0#8, 0#8) []
  if delm ≠ -1 then
    some (ret, ss.get.2)
  else some (ret, ss)

def hexChar (d : Nat) : Byte := if d < 10 then BitVec.ofNat 8 (48 + d) else BitVec.ofNat 8 (87 + d)

def encodeHex (data : List Byte) : List Byte :=
  data.flatMap fun b => [hexChar (b.toNat / 16), hexChar (b.toNat % 16)]

/-! ## Hexadecimal fields -/

theorem strtoul_hexChar (b : Byte) :
    strtoul (hexChar (b.toNat / 16), hexChar (b.toNat % 16)) = b.setWidth 64 := by
  revert b; decide +kernel

theorem Stream.peek_stopped (ss : Stream) (stopped : ss.good = false) : ss.peek = (-1, { ss with fail := true }) := by
  simp [Stream.peek, stopped]

theorem hexstringLoop_stopped (delm : Int) (h : delm ≠ -1) (fuel : Nat) (ss : Stream) (hexString : HexString)
    (ret : List Byte) (stopped : ss.good = false) : hexstringLoop delm fuel ss hexString ret = none := by
  induction fuel generalizing ss hexString ret with
  | zero => rfl
  | succ fuel ih =>
    simp only [hexstringLoop, ss.peek_stopped stopped, if_neg (Ne.symm h)]
    apply ih
    simp [Stream.read, Stream.good]

theorem hexstringLoop_pair (delm : Int) (fuel : Nat) (a b : Byte) (text : List Byte) (hexString : HexString)
    (ret : List Byte) (h : (a.toNat : Int) ≠ delm) :
    hexstringLoop delm (fuel + 1) ⟨a :: b :: text, false, false⟩ hexString ret
      = hexstringLoop delm fuel ⟨text, false, false⟩ (a, b) (ret ++ [(strtoul (a, b)).setWidth 8]) := by
  simp [hexstringLoop, Stream.peek, Stream.read, Stream.good, HexString.store, h,
    show ¬text.length + 1 + 1 < 2 by omega]

/-- The delimiter is the end of the text, or stands where the loop looks for it. -/
def Delimited (delm : Int) (text : List Byte) : Prop :=
  delm = -1 ∨ ∃ i c, text[2 * i]? = some c ∧ (c.toNat : Int) = delm

theorem delimited_pair (delm : Int) (a b : Byte) (text : List Byte) (h : (a.toNat : Int) ≠ delm) :
    Delimited delm (a :: b :: text) ↔ Delimited delm text := by
  refine or_congr_right ⟨?_, ?_⟩
  · rintro ⟨_ | i, c, at_i, rfl⟩
    · simp only [Nat.mul_zero, List.getElem?_cons_zero, Option.some.injEq] at at_i
      exact absurd (congrArg (fun c : Byte => (c.toNat : Int)) at_i) h
    · exact ⟨i, c, by simpa [Nat.mul_add] using at_i, rfl⟩
  · rintro ⟨i, c, at_i, rfl⟩
    exact ⟨i + 1, c, by simpa [Nat.mul_add] using at_i, rfl⟩

theorem hexstringLoop_ends_iff (delm : Int) : ∀ (text : List Byte) (hexString : HexString) (ret : List Byte),
    (∃ fuel r, hexstringLoop delm fuel ⟨text, false, false⟩ hexString ret = some r) ↔ Delimited delm text
  | [], hexString, ret => by
    by_cases h : delm = -1
    · refine iff_of_true ⟨1, ?_⟩ (.inl h)
      simp [hexstringLoop, Stream.peek, Stream.good, h]
    · refine iff_of_false ?_ ?_
      · rintro ⟨_ | fuel, r, ran⟩
        · cases ran
        · simp only [hexstringLoop, Stream.peek, Stream.good, Bool.not_false, Bool.and_true, if_true,
            if_neg (Ne.symm h)] at ran
          rw [hexstringLoop_stopped delm h _ _ _ _ (by simp [Stream.read, Stream.good])] at ran
          cases ran
      · simp [Delimited, h]
  | [a], hexString, ret => by
    by_cases here : (a.toNat : Int) = delm
    · refine iff_of_true ⟨1, ?_⟩ (.inr ⟨0, a, rfl, here⟩)
      simp [hexstringLoop, Stream.peek, Stream.good, here]
    by_cases h : delm = -1
    · -- the half pair sets both bits of the stream, and the next look meets the end
      refine iff_of_true ⟨2, ?_⟩ (.inl h)
      subst h
      simp [hexstringLoop, Stream.peek, Stream.read, Stream.good]
    · refine iff_of_false ?_ ?_
      · rintro ⟨_ | fuel, r, ran⟩
        · cases ran
        · simp only [hexstringLoop, Stream.peek, Stream.good, Bool.not_false, Bool.and_true, if_true, if_neg here] at ran
          rw [hexstringLoop_stopped delm h _ _ _ _ (by simp [Stream.read, Stream.good])] at ran
          cases ran
      · rintro (h' | ⟨_ | i, c, at_i, rfl⟩)
        · exact h h'
        · simp only [Nat.mul_zero, List.getElem?_cons_zero, Option.some.injEq] at at_i
          exact here (congrArg (fun c : Byte => (c.toNat : Int)) at_i)
        · simp [Nat.mul_add] at at_i
  | a :: b :: text, hexString, ret => by
    by_cases here : (a.toNat : Int) = delm
    · refine iff_of_true ⟨1, ?_⟩ (.inr ⟨0, a, rfl, here⟩)
      simp [hexstringLoop, Stream.peek, Stream.good, here]
    · rw [delimited_pair delm a b text here,
        ← hexstringLoop_ends_iff delm text (a, b) (ret ++ [(strtoul (a, b)).setWidth 8])]
      constructor
      · rintro ⟨_ | fuel, r, ran⟩
        · cases ran
        · exact ⟨fuel, r, by rwa [hexstringLoop_pair _ _ _ _ _ _ _ here] at ran⟩
      · rintro ⟨fuel, r, ran⟩
        exact ⟨fuel + 1, r, by rwa [hexstringLoop_pair _ _ _ _ _ _ _ here]⟩

theorem encodeHex_cons (b : Byte) (d : List Byte) :
    encodeHex (b :: d) = hexChar (b.toNat / 16) :: hexChar (b.toNat % 16) :: encodeHex d := rfl

theorem hexstringLoop_encodeHex (delm : Int) (d text : List Byte) (fuel : Nat) (hexString : HexString)
    (ret : List Byte) (unseen : ∀ b ∈ d, ((hexChar (b.toNat / 16)).toNat : Int) ≠ delm) :
    ∃ hexString', hexstringLoop delm (fuel + d.length) ⟨encodeHex d ++ text, false, false⟩ hexString ret
      = hexstringLoop delm fuel ⟨text, false, false⟩ hexString' (ret ++ d) := by
  induction d generalizing hexString ret with
  | nil => exact ⟨hexString, by simp [encodeHex]⟩
  | cons b d ih =>
    obtain ⟨hexString', ran⟩ := ih (hexChar (b.toNat / 16), hexChar (b.toNat % 16)) (ret ++ [b])
      fun b' mem => unseen b' (List.mem_cons_of_mem _ mem)
    refine ⟨hexString', ?_⟩
    rw [encodeHex_cons, List.cons_append, List.cons_append, List.length_cons, ← Nat.add_assoc,
      hexstringLoop_pair _ _ _ _ _ _ _ (unseen b (List.mem_cons_self ..)), strtoul_hexChar,
      BitVec.setWidth_setWidth_of_le b (by omega), BitVec.setWidth_eq, ran, List.append_assoc]
    rfl

/-- A delimiter that is the high digit of a byte ends the field before that byte. -/
theorem hexstringLoop_cut (delm : Int) (d text : List Byte) (fuel : Nat) (hexString : HexString) (ret : List Byte)
    (r : List Byte × Stream) (seen : ∃ b ∈ d, ((hexChar (b.toNat / 16)).toNat : Int) = delm)
    (ran : hexstringLoop delm fuel ⟨encodeHex d ++ text, false, false⟩ hexString ret = some r) :
    r.1.length < ret.length + d.length := by
  induction d generalizing fuel hexString ret with
  | nil => simp at seen
  | cons b d ih =>
    obtain _ | fuel := fuel
    · cases ran
    by_cases here : ((hexChar (b.toNat / 16)).toNat : Int) = delm
    · simp only [hexstringLoop, Stream.peek, Stream.good, encodeHex_cons, List.cons_append, Bool.not_false,
        Bool.and_true, if_true, if_pos here, Option.some.injEq] at ran
      subst ran
      simp
    · rw [encodeHex_cons, List.cons_append, List.cons_append, hexstringLoop_pair _ _ _ _ _ _ _ here] at ran
      obtain ⟨b', mem, eq⟩ := seen
      have later : b' ∈ d := (List.mem_cons.mp mem).resolve_left fun same => here (same ▸ eq)
      have := ih fuel _ _ ⟨b', later, eq⟩ ran
      simp only [List.length_append, List.length_cons, List.length_nil] at this ⊢
      omega

/-- A field ends exactly when its delimiter is the end of the text or stands after whole pairs of digits, and what
`encodeHex` wrote comes back exactly when the delimiter is not the high digit of one of its bytes. -/
theorem hexstring_total_iff (text d rest : List Byte) (delm : Int) (c : Byte) :
    ((∃ fuel r, hexstring fuel ⟨text, false, false⟩ delm = some r) ↔
      delm = -1 ∨ ∃ i x, text[2 * i]? = some x ∧ (x.toNat : Int) = delm) ∧
    (∃ fuel, hexstring fuel ⟨encodeHex d, false, false⟩ (-1) = some (d, ⟨[], true, false⟩)) ∧
    ((∃ fuel, hexstring fuel ⟨encodeHex d ++ c :: rest, false, false⟩ c.toNat = some (d, ⟨rest, false, false⟩)) ↔
      ∀ b ∈ d, hexChar (b.toNat / 16) ≠ c) := by
  have signed : ∀ x : Byte, (x.toNat : Int) ≠ -1 := fun x => by omega
  refine ⟨?_, ?_, ?_, ?_⟩
  · refine (exists_congr fun fuel => ?_).trans (hexstringLoop_ends_iff delm text (0#8, 0#8) [])
    cases ran : hexstringLoop delm fuel ⟨text, false, false⟩ (0#8, 0#8) [] with
    | none => simp [hexstring, ran]
    | some r =>
      by_cases h : delm = -1
      · subst h
        simp [hexstring, ran]
      · simp [hexstring, ran, h]
  · obtain ⟨_, ran⟩ := hexstringLoop_encodeHex (-1) d [] 1 (0#8, 0#8) [] fun b _ => signed _
    refine ⟨1 + d.length, ?_⟩
    rw [List.append_nil] at ran
    simp [hexstring, ran, hexstringLoop, Stream.peek, Stream.good]
  · rintro ⟨fuel, ran⟩ b mem same
    cases looped : hexstringLoop c.toNat fuel ⟨encodeHex d ++ c :: rest, false, false⟩ (0#8, 0#8) [] with
    | none => simp [hexstring, looped] at ran
    | some r =>
      have short := hexstringLoop_cut _ d _ fuel _ _ r ⟨b, mem, by rw [same]⟩ looped
      have whole : r.1 = d := by
        simp only [hexstring, looped, Option.bind_eq_bind, Option.bind_some, ne_eq, signed c, not_false_eq_true,
          if_true, Option.some.injEq, Prod.mk.injEq] at ran
        exact ran.1
      rw [whole] at short
      simp at short
  · intro unseen
    obtain ⟨_, ran⟩ := hexstringLoop_encodeHex c.toNat d (c :: rest) 1 (0#8, 0#8) [] fun b mem same =>
      unseen b mem (BitVec.eq_of_toNat_eq (by exact_mod_cast same))
    refine ⟨1 + d.length, ?_⟩
    simp [hexstring, ran, hexstringLoop, Stream.peek, Stream.get, Stream.good, signed c]

/-- `vFile:open` with a file name that no comma follows: the loop pushes bytes for ever. -/
theorem hexstring_without_comma : ¬∃ fuel r, hexstring fuel ⟨[0x32#8], false, false⟩ 0x2c = some r := by
  rintro ⟨_ | fuel, r, ran⟩
  · cases ran
  · have stopped := hexstringLoop_stopped 0x2c (by decide) fuel ⟨[], true, true⟩ (0x32#8, 0#8) [2#8] rfl
    cases (show hexstring (fuel + 1) ⟨[0x32#8], false, false⟩ 0x2c = none by
      simp [hexstring, hexstringLoop, Stream.peek, Stream.read, Stream.good, HexString.store, stopped,
        show BitVec.setWidth 8 (strtoul (0x32#8, 0#8)) = 2#8 by decide]) ▸ ran

/-! ## Memory packets -/

/-- `ss >> std::hex >> value`: blanks, a sign, `0x`, then digits; no digits or more than 64 bits set `fail`. -/
def Stream.extractHex (s : Stream) : BitVec 64 × Stream :=
  if s.good then
    let text := s.rest.dropWhile isspace
    let negative := text.head? = some 0x2d#8
    let text := if negative ∨ text.head? = some 0x2b#8 then text.tail else text
    let zero := text.head? = some 0x30#8
    let text := if zero then text.tail else text
    let marked := zero ∧ (text.head? = some 0x78#8 ∨ text.head? = some 0x58#8)
    let text := if marked then text.tail else text
    let digits := text.takeWhile fun c => (hexDigit? c).isSome
    let rest := text.drop digits.length
    let value := hexValue digits 0
    if digits = [] ∧ (¬zero ∨ marked) then (0#64, ⟨rest, rest.isEmpty, true⟩)
    else if 2 ^ 64 ≤ value then (-1#64, ⟨rest, rest.isEmpty, true⟩)
    else (if negative then -BitVec.ofNat 64 value else BitVec.ofNat 64 value, ⟨rest, rest.isEmpty, false⟩)
  else (0#64, { s with fail := true })

/-- A line of `/proc/self/maps`, up to its addresses. -/
structure Mapping where
  mapBegin : BitVec 64
  mapEnd : BitVec 64
  deriving DecidableEq

/-- The address is in the mapping. -/
def Mapping.Contains (m : Mapping) (address : BitVec 64) : Prop := m.mapBegin ≤ address ∧ address < m.mapEnd

instance (m : Mapping) (address : BitVec 64) : Decidable (m.Contains address) :=
  inferInstanceAs (Decidable (_ ∧ _))

/-- The line `CheckMemMapping` stops at. -/
def mappingOf (maps : List Mapping) (address : BitVec 64) : Option Mapping := maps.find? fun m => m.Contains address

def checkMemMapping (maps : List Mapping) (address size : BitVec 64) : BitVec 64 :=
  let addressEnd := address + size
  match mappingOf maps address with
  | some m =>
    let overrun := if m.mapEnd < addressEnd then addressEnd - m.mapEnd else 0#64
    size - overrun
  | none => 0#64

/-- The fields `handleMemory` reads off its packet, and the stream it leaves. -/
structure MemoryPacket where
  write : Bool
  addr : BitVec 64
  length : BitVec 64
  data : List Byte
  ss : Stream
  deriving DecidableEq

def MemoryPacket.parse (packet : List Byte) : MemoryPacket :=
  let (c, ss) := Stream.get ⟨packet, false, false⟩
  let write := c = 0x4d
  let (addr, ss) := ss.extractHex
  let (_, ss) := ss.get -- the comma
  let (length, ss) := ss.extractHex
  if write then
    let (_, ss) := ss.get -- the colon
    match hexstring (packet.length + 2) ss (-1) with
    | some (data, ss) => ⟨write, addr, length, data, ss⟩
    | none => ⟨write, addr, length, [], ss⟩
  else ⟨write, addr, length, [], ss⟩

def MemoryPacket.valid (q : MemoryPacket) : Bool :=
  !(q.ss.fail || !q.ss.eof || (q.write && q.data.length ≠ q.length.toNat))

/-- What a memory packet does: its reply, the bytes it reads and the bytes it stores. -/
structure Handled where
  reply : List Byte
  reads : List (BitVec 64)
  stores : List (BitVec 64 × Byte)
  deriving DecidableEq

/-- The reply `E00`. -/
def refused : Handled := ⟨[0x45#8, 0x30#8, 0x30#8], [], []⟩

/-- The addresses of `n` bytes from `addr` on. -/
def span (addr : BitVec 64) (n : Nat) : List (BitVec 64) := (List.range n).map fun i => addr + BitVec.ofNat 64 i

def handleMemory (maps : List Mapping) (memory : BitVec 64 → Byte) (packet : List Byte) : Handled :=
  let q := MemoryPacket.parse packet
  if q.valid then
    let length := checkMemMapping maps q.addr q.length
    if length = 0#64 then refused
    else if q.write then
      ⟨[0x4f#8, 0x4b#8], [], (span q.addr q.data.length).zip q.data⟩ -- `memcpy` of all the data, reply `OK`
    else
      ⟨encodeHex ((span q.addr length.toNat).map memory), span q.addr length.toNat, []⟩
  else refused

/-- Bytes from an address of a mapping on lie in it exactly when the last does. -/
theorem span_inside_iff (m : Mapping) (addr : BitVec 64) (n : Nat) (inside : m.Contains addr) :
    (∀ a ∈ span addr n, m.Contains a) ↔ addr.toNat + n ≤ m.mapEnd.toNat := by
  have lower : m.mapBegin.toNat ≤ addr.toNat := inside.1
  have upper : addr.toNat < m.mapEnd.toNat := inside.2
  simp only [span, List.mem_map, List.mem_range, forall_exists_index, and_imp, forall_apply_eq_imp_iff₂]
  constructor
  · intro all
    by_contra beyond
    -- the first byte after the mapping is one of them
    have last := (all (m.mapEnd.toNat - addr.toNat) (by omega)).2
    have : (addr + BitVec.ofNat 64 (m.mapEnd.toNat - addr.toNat)).toNat < m.mapEnd.toNat := last
    rw [BitVec.toNat_add, BitVec.toNat_ofNat] at this
    omega
  · intro fits i less
    have at_i : (addr + BitVec.ofNat 64 i).toNat = addr.toNat + i := by
      rw [BitVec.toNat_add, BitVec.toNat_ofNat]
      omega
    exact ⟨by show _ ≤ BitVec.toNat _; omega, by show BitVec.toNat _ < _; omega⟩

theorem checkMemMapping_spec (maps : List Mapping) (addr size : BitVec 64) (m : Mapping)
    (found : mappingOf maps addr = some m) (inside : m.Contains addr) :
    (checkMemMapping maps addr size = 0#64 ↔ size = 0#64) ∧
    (size ≠ 0#64 → (addr.toNat + (checkMemMapping maps addr size).toNat ≤ m.mapEnd.toNat ↔
      addr.toNat + size.toNat < 2 ^ 64)) := by
  have upper : addr.toNat < m.mapEnd.toNat := inside.2
  simp only [checkMemMapping, found]
  split
  · rename_i beyond
    have beyond : m.mapEnd.toNat < (addr + size).toNat := beyond
    have clamped : (size - (addr + size - m.mapEnd)).toNat = m.mapEnd.toNat - addr.toNat := by
      bv_omega
    rw [BitVec.toNat_add] at beyond
    refine ⟨iff_of_false (fun zero => ?_) (fun zero => ?_), fun _ => by omega⟩
    · rw [zero, BitVec.toNat_ofNat] at clamped
      omega
    · rw [zero, BitVec.toNat_ofNat] at beyond
      omega
  · rename_i below
    have below : ¬m.mapEnd.toNat < (addr + size).toNat := below
    rw [BitVec.toNat_add] at below
    rw [BitVec.sub_zero]
    refine ⟨Iff.rfl, fun some_size => ?_⟩
    omega

/-- Only bytes of the mapping of the packet's address are touched, and data is stored whole or refused. -/
def KeepsToMapping (maps : List Mapping) (q : MemoryPacket) (h : Handled) : Prop :=
  (∀ a ∈ h.reads ++ h.stores.map Prod.fst, ∃ m, mappingOf maps q.addr = some m ∧ m.Contains a) ∧
  (h = refused ∨ q.write = false ∨ h.stores = (span q.addr q.length.toNat).zip q.data)

theorem refused_keeps (maps : List Mapping) (q : MemoryPacket) : KeepsToMapping maps q refused :=
  ⟨by simp [refused], .inl rfl⟩

/-- A memory packet keeps to its mapping exactly when a range to read does not wrap and data to store does not end behind the
mapping. -/
theorem handleMemory_keeps_iff (maps : List Mapping) (memory : BitVec 64 → Byte) (packet : List Byte) :
    KeepsToMapping maps (MemoryPacket.parse packet) (handleMemory maps memory packet) ↔
    ∀ m, (MemoryPacket.parse packet).valid = true → mappingOf maps (MemoryPacket.parse packet).addr = some m →
      (MemoryPacket.parse packet).length ≠ 0#64 →
      ((MemoryPacket.parse packet).write = true →
        (MemoryPacket.parse packet).addr.toNat + (MemoryPacket.parse packet).data.length ≤ m.mapEnd.toNat) ∧
      ((MemoryPacket.parse packet).write = false →
        (MemoryPacket.parse packet).addr.toNat + (MemoryPacket.parse packet).length.toNat < 2 ^ 64) := by
  unfold handleMemory
  generalize MemoryPacket.parse packet = q
  by_cases valid : q.valid = true
  case neg => simp [valid, refused_keeps]
  cases found : mappingOf maps q.addr with
  | none => simp [checkMemMapping, found, refused_keeps]
  | some m =>
    have inside : m.Contains q.addr := by simpa using List.find?_some found
    obtain ⟨zero_iff, clamp_iff⟩ := checkMemMapping_spec maps q.addr q.length m found inside
    by_cases zero : q.length = 0#64
    · simp only [valid, if_true, if_pos (zero_iff.mpr zero)]
      exact iff_of_true (refused_keeps maps q) fun _ _ _ nonzero => absurd zero nonzero
    simp only [valid, if_true, if_neg (mt zero_iff.mp zero), Option.some.injEq]
    by_cases write : q.write = true
    · have whole : q.data.length = q.length.toNat := by simp_all [MemoryPacket.valid]
      have fst : List.map Prod.fst ((span q.addr q.data.length).zip q.data) = span q.addr q.data.length :=
        List.map_fst_zip (by simp [span])
      simp [KeepsToMapping, write, zero, found, fst, ← whole, ← span_inside_iff m q.addr _ inside]
    · simp [KeepsToMapping, write, zero, found, span_inside_iff m q.addr _ inside, clamp_iff zero]

/-- Two bytes stored from the last byte of a mapping on: the second goes to the byte behind it. -/
theorem handleMemory_overrun : ¬KeepsToMapping [⟨0x10#64, 0x20#64⟩]
    (MemoryPacket.parse [0x4d#8, 0x31#8, 0x66#8, 0x2c#8, 0x32#8, 0x3a#8, 0x30#8, 0x31#8, 0x30#8, 0x32#8])
    (handleMemory [⟨0x10#64, 0x20#64⟩] (fun _ => 0#8)
      [0x4d#8, 0x31#8, 0x66#8, 0x2c#8, 0x32#8, 0x3a#8, 0x30#8, 0x31#8, 0x30#8, 0x32#8]) := by
  have parsed : MemoryPacket.parse [0x4d#8, 0x31#8, 0x66#8, 0x2c#8, 0x32#8, 0x3a#8, 0x30#8, 0x31#8, 0x30#8, 0x32#8]
      = ⟨true, 0x1f#64, 2#64, [1#8, 2#8], ⟨[], true, false⟩⟩ := by decide +kernel
  rintro ⟨stays, -⟩
  obtain ⟨m, found, inside⟩ := stays 0x20#64 (by simp [handleMemory, parsed]; decide)
  cases found
  exact absurd inside (by decide)

end FexEmu.Core.GdbServer
