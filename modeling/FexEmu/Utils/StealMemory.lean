import Mathlib.Data.Nat.Bitwise
import Mathlib.Tactic
/-!
# The holes of the host's address space

`StealMemoryRegion` reads `/proc/self/maps` character by character and reserves what is not mapped.
-/
namespace FexEmu.StealMemory

abbrev Byte := BitVec 8

/-- The states of the parser of /proc/self/maps. -/
inductive ParseState
  | parseBegin | parseEnd | scanEnd
  deriving DecidableEq

/-- A `MemoryRegion`: its address and size. -/
abbrev Region := Nat × Nat

/-- The parser's variables. -/
structure Scan where
  state : ParseState
  regionBegin : Nat
  regionEnd : Nat
  regions : List Region
  deriving DecidableEq

/-- `c <= '9' ? (c - '0') : (c - 'a' + 10)`, converted to `uintptr_t`. -/
def digitOf (c : Byte) : Nat := if c.toNat ≤ 57 then c.toNat - 48 else (c.toNat + (2 ^ 64 - 87)) % 2 ^ 64

def isalnum (c : Byte) : Bool :=
  (48 ≤ c.toNat && c.toNat ≤ 57) || (65 ≤ c.toNat && c.toNat ≤ 90) || (97 ≤ c.toNat && c.toNat ≤ 122)

def shiftIn (region digit : Nat) : Nat := (region <<< 4) % 2 ^ 64 ||| digit

def reserve (mapBegin mapEnd : Nat) : List Region := if mapBegin < mapEnd then [(mapBegin, mapEnd - mapBegin)] else []

/-- A turn of the loop with a character. An unexpected one fails an assertion. -/
def scanChar (begin_ end_ : Nat) (s : Scan) (c : Byte) : Option Scan :=
  match s.state with
  | .scanEnd => some (if c = 0x0a#8 then { s with state := .parseBegin } else s)
  | .parseBegin =>
    if c = 0x2d#8 then
      some ⟨.parseEnd, 0, 0, s.regions ++ reserve (max s.regionEnd begin_) (min s.regionBegin end_)⟩
    else if isalnum c then some { s with regionBegin := shiftIn s.regionBegin (digitOf c) }
    else none
  | .parseEnd =>
    if c = 0x20#8 then some { s with state := .scanEnd }
    else if isalnum c then some { s with regionEnd := shiftIn s.regionEnd (digitOf c) }
    else none

def scanReads (begin_ end_ : Nat) : List (List Byte) → Scan → Option (List Region)
  | buffer :: reads, s =>
    if buffer = [] then finish s else (buffer.foldlM (scanChar begin_ end_) s).bind (scanReads begin_ end_ reads)
  | [], s => finish s
where
  finish (s : Scan) : Option (List Region) :=
    if s.state = .parseBegin then some (s.regions ++ reserve (max s.regionEnd begin_) end_) else none

def stealMemoryRegion (begin_ end_ : Nat) (reads : List (List Byte)) : Option (List Region) :=
  scanReads begin_ end_ reads ⟨.parseBegin, 0, 0, []⟩

/-! ## The text -/

/-- A line of the file: two addresses in hexadecimal, and the rest. -/
structure Line where
  first : List (Fin 16)
  last : List (Fin 16)
  others : List Byte
  one_line : 0x0a#8 ∉ others

namespace Line

def valueOf (digits : List (Fin 16)) : Nat := digits.foldl (fun v d => 16 * v + d.val) 0

/-- The mapping of a line: its first address and the one behind its last. -/
def start (l : Line) : Nat := valueOf l.first
def stop (l : Line) : Nat := valueOf l.last

def hexChar (d : Fin 16) : Byte := if d.val < 10 then BitVec.ofNat 8 (48 + d) else BitVec.ofNat 8 (87 + d)

def text (l : Line) : List Byte :=
  l.first.map hexChar ++ 0x2d#8 :: l.last.map hexChar ++ 0x20#8 :: l.others ++ [0x0a#8]

end Line

/-- The mappings are disjoint and in increasing order. -/
structure Maps (lines : List Line) : Prop where
  mapped : ∀ l ∈ lines, l.start < l.stop ∧ l.stop < 2 ^ 64
  ordered : lines.Pairwise fun l l' => l.stop ≤ l'.start

/-! ## What a line does -/

theorem hexChar_spec : ∀ d : Fin 16, digitOf (Line.hexChar d) = d ∧ isalnum (Line.hexChar d) = true ∧
    Line.hexChar d ≠ 0x2d#8 ∧ Line.hexChar d ≠ 0x20#8 := by decide

theorem shiftIn_digit (v : Nat) (d : Fin 16) (h : 16 * v + d < 2 ^ 64) : shiftIn v d = 16 * v + d := by
  have shifted : v <<< 4 = 16 * v := by rw [Nat.shiftLeft_eq, Nat.mul_comm]
  rw [shiftIn, Nat.mod_eq_of_lt (by omega), ← Nat.shiftLeft_add_eq_or_of_lt (by omega), shifted]

theorem foldl_le (digits : List (Fin 16)) (v : Nat) : v ≤ digits.foldl (fun v d => 16 * v + d.val) v := by
  induction digits generalizing v with
  | nil => exact Nat.le_refl v
  | cons d digits ih => exact Nat.le_trans (show v ≤ 16 * v + d.val by omega) (ih _)

theorem foldlM_digits (begin_ end_ : Nat) (digits : List (Fin 16)) (put : Nat → Scan)
    (takes : ∀ v d, scanChar begin_ end_ (put v) (Line.hexChar d) = some (put (shiftIn v d))) (v : Nat)
    (h : digits.foldl (fun v d => 16 * v + d.val) v < 2 ^ 64) :
    (digits.map Line.hexChar).foldlM (scanChar begin_ end_) (put v)
      = some (put (digits.foldl (fun v d => 16 * v + d.val) v)) := by
  induction digits generalizing v with
  | nil => rfl
  | cons d digits ih =>
    have small : 16 * v + d < 2 ^ 64 := Nat.lt_of_le_of_lt (foldl_le digits _) h
    rw [List.map_cons, List.foldlM_cons, takes, shiftIn_digit v d small]
    exact ih _ h

theorem foldlM_others (begin_ end_ : Nat) (others : List Byte) (s : Scan) (h : 0x0a#8 ∉ others)
    (scanning : s.state = .scanEnd) : others.foldlM (scanChar begin_ end_) s = some s := by
  induction others with
  | nil => rfl
  | cons c others ih =>
    simp only [List.mem_cons, not_or] at h
    simp [scanChar, scanning, Ne.symm h.1, ih h.2]

theorem foldlM_line (begin_ end_ : Nat) (l : Line) (e : Nat) (regions : List Region)
    (first : l.start < 2 ^ 64) (last : l.stop < 2 ^ 64) :
    l.text.foldlM (scanChar begin_ end_) ⟨.parseBegin, 0, e, regions⟩
      = some ⟨.parseBegin, 0, l.stop, regions ++ reserve (max e begin_) (min l.start end_)⟩ := by
  have begins := foldlM_digits begin_ end_ l.first (fun v => ⟨.parseBegin, v, e, regions⟩)
    (fun v d => by simp [scanChar, hexChar_spec d]) 0 first
  have ends := foldlM_digits begin_ end_ l.last
    (fun v => ⟨.parseEnd, 0, v, regions ++ reserve (max e begin_) (min l.start end_)⟩)
    (fun v d => by simp [scanChar, hexChar_spec d]) 0 last
  have others := foldlM_others begin_ end_ l.others
    ⟨.scanEnd, 0, l.stop, regions ++ reserve (max e begin_) (min l.start end_)⟩ l.one_line rfl
  simp only [Line.text, List.foldlM_append, begins, Option.bind_eq_bind, Option.bind_some, List.foldlM_cons]
  rw [show scanChar begin_ end_ ⟨.parseBegin, l.first.foldl (fun v d => 16 * v + d.val) 0, e, regions⟩ 0x2d#8
    = some ⟨.parseEnd, 0, 0, regions ++ reserve (max e begin_) (min l.start end_)⟩ from rfl, Option.bind_some, ends,
    Option.bind_some]
  rw [show scanChar begin_ end_ ⟨.parseEnd, 0, l.last.foldl (fun v d => 16 * v + d.val) 0,
      regions ++ reserve (max e begin_) (min l.start end_)⟩ 0x20#8
    = some ⟨.scanEnd, 0, l.stop, regions ++ reserve (max e begin_) (min l.start end_)⟩ from rfl, Option.bind_some,
    others]
  rfl

/-- The holes before, between and behind the mappings of these lines, from `e` on. -/
def holes (begin_ end_ : Nat) : Nat → List Line → List Region
  | e, [] => reserve (max e begin_) end_
  | e, l :: lines => reserve (max e begin_) (min l.start end_) ++ holes begin_ end_ l.stop lines

theorem foldlM_lines (begin_ end_ : Nat) (lines : List Line) (e : Nat) (regions : List Region)
    (mapped : ∀ l ∈ lines, l.start < l.stop ∧ l.stop < 2 ^ 64) :
    ((lines.flatMap Line.text).foldlM (scanChar begin_ end_) ⟨.parseBegin, 0, e, regions⟩).bind
      (scanReads.finish begin_ end_) = some (regions ++ holes begin_ end_ e lines) := by
  induction lines generalizing e regions with
  | nil => rfl
  | cons l lines ih =>
    obtain ⟨nonempty, bound⟩ := mapped l (List.mem_cons_self ..)
    rw [List.flatMap_cons, List.foldlM_append, foldlM_line begin_ end_ l e regions (by omega) bound]
    exact (ih _ _ fun l' mem => mapped l' (List.mem_cons_of_mem _ mem)).trans (by rw [holes, List.append_assoc])

/-- The cuts between the reads do not matter. -/
theorem scanReads_flatten (begin_ end_ : Nat) (reads : List (List Byte)) (s : Scan) (whole : [] ∉ reads) :
    scanReads begin_ end_ reads s
      = (reads.flatten.foldlM (scanChar begin_ end_) s).bind (scanReads.finish begin_ end_) := by
  induction reads generalizing s with
  | nil => rfl
  | cons buffer reads ih =>
    simp only [List.mem_cons, not_or] at whole
    rw [scanReads, if_neg (Ne.symm whole.1), List.flatten_cons, List.foldlM_append]
    cases buffer.foldlM (scanChar begin_ end_) s with
    | none => rfl
    | some s' => exact ih s' whole.2

/-! ## The holes -/

theorem mem_reserve (a b x : Nat) : (∃ r ∈ reserve a b, r.1 ≤ x ∧ x < r.1 + r.2) ↔ a ≤ x ∧ x < b := by
  unfold reserve
  split
  · simp
    omega
  · simp
    omega

theorem mem_holes (begin_ end_ : Nat) (lines : List Line) (e x : Nat)
    (mapped : ∀ l ∈ lines, e ≤ l.start ∧ l.start < l.stop) (ordered : lines.Pairwise fun l l' => l.stop ≤ l'.start) :
    (∃ r ∈ holes begin_ end_ e lines, r.1 ≤ x ∧ x < r.1 + r.2) ↔
      begin_ ≤ x ∧ x < end_ ∧ e ≤ x ∧ ∀ l ∈ lines, ¬(l.start ≤ x ∧ x < l.stop) := by
  induction lines generalizing e with
  | nil =>
    rw [holes, mem_reserve]
    simp
    omega
  | cons l lines ih =>
    obtain ⟨after, rest⟩ := List.pairwise_cons.mp ordered
    have ⟨above, nonempty⟩ := mapped l (List.mem_cons_self ..)
    have later := ih l.stop (fun l' mem => ⟨after l' mem, (mapped l' (List.mem_cons_of_mem _ mem)).2⟩) rest
    simp only [holes, List.mem_append, or_and_right, exists_or, mem_reserve, later, List.forall_mem_cons]
    constructor
    · rintro (here | ⟨low, high, behind, free⟩)
      · refine ⟨by omega, by omega, by omega, by omega, fun l' mem => ?_⟩
        have := after l' mem
        omega
      · exact ⟨low, high, by omega, by omega, free⟩
    · rintro ⟨low, high, behind, outside, free⟩
      by_cases before : x < l.start
      · exact .inl (by omega)
      · exact .inr ⟨low, high, by omega, free⟩

theorem holes_above (begin_ end_ : Nat) (lines : List Line) (e : Nat)
    (mapped : ∀ l ∈ lines, e ≤ l.start ∧ l.start < l.stop) (ordered : lines.Pairwise fun l l' => l.stop ≤ l'.start) :
    (∀ r ∈ holes begin_ end_ e lines, e ≤ r.1 ∧ 0 < r.2) ∧
      (holes begin_ end_ e lines).Pairwise fun r r' => r.1 + r.2 < r'.1 := by
  have reserved (a b : Nat) : ∀ r ∈ reserve a b, a = r.1 ∧ 0 < r.2 ∧ r.1 + r.2 = b := by
    unfold reserve
    split <;> simp
    omega
  induction lines generalizing e with
  | nil =>
    refine ⟨fun r mem => ?_, ?_⟩
    · have := reserved _ _ r mem
      omega
    · rw [holes, reserve]
      split <;> simp
  | cons l lines ih =>
    obtain ⟨after, rest⟩ := List.pairwise_cons.mp ordered
    have ⟨start, nonempty⟩ := mapped l (List.mem_cons_self ..)
    have ⟨above, apart⟩ := ih l.stop (fun l' mem => ⟨after l' mem, (mapped l' (List.mem_cons_of_mem _ mem)).2⟩) rest
    refine ⟨fun r mem => ?_, List.pairwise_append.mpr ⟨?_, apart, fun r mem r' mem' => ?_⟩⟩
    · obtain mem | mem := List.mem_append.mp mem
      · have := reserved _ _ r mem
        omega
      · have := above r mem
        omega
    · rw [reserve]
      split <;> simp
    · have := reserved _ _ r mem
      have := above r' mem'
      omega

/-- The holes of the window: apart, in order, none touching the next, and together all that no line maps. -/
theorem stealMemoryRegion_holes (lines : List Line) (maps : Maps lines) (reads : List (List Byte))
    (cut : reads.flatten = lines.flatMap Line.text) (whole : [] ∉ reads) (begin_ end_ : Nat) :
    ∃ regions, stealMemoryRegion begin_ end_ reads = some regions ∧
      (∀ r ∈ regions, 0 < r.2) ∧ (regions.Pairwise fun r r' => r.1 + r.2 < r'.1) ∧
      ∀ x, (∃ r ∈ regions, r.1 ≤ x ∧ x < r.1 + r.2) ↔
        begin_ ≤ x ∧ x < end_ ∧ ∀ l ∈ lines, ¬(l.start ≤ x ∧ x < l.stop) := by
  have mapped : ∀ l ∈ lines, 0 ≤ l.start ∧ l.start < l.stop := fun l mem => ⟨Nat.zero_le _, (maps.mapped l mem).1⟩
  have ⟨above, apart⟩ := holes_above begin_ end_ lines 0 mapped maps.ordered
  refine ⟨holes begin_ end_ 0 lines, ?_, fun r mem => (above r mem).2, apart, fun x => ?_⟩
  · rw [stealMemoryRegion, scanReads_flatten begin_ end_ reads _ whole, cut]
    exact foldlM_lines begin_ end_ lines 0 [] maps.mapped
  · simpa using mem_holes begin_ end_ lines 0 x mapped maps.ordered

/-- `10-20 r-xp`, and `30-40 rw-p` behind a hole. -/
def twoLines : List Line :=
  [⟨[1, 0], [2, 0], [0x72, 0x2d, 0x78, 0x70], by decide⟩, ⟨[3, 0], [4, 0], [0x72, 0x77, 0x2d, 0x70], by decide⟩]

/-- The second read begins in the first address of the second line. -/
theorem stealMemoryRegion_twoLines : ∃ regions,
    stealMemoryRegion 8 0x50 [(twoLines.flatMap Line.text).take 12, (twoLines.flatMap Line.text).drop 12] = some regions ∧
      (∀ r ∈ regions, 0 < r.2) ∧ (regions.Pairwise fun r r' => r.1 + r.2 < r'.1) ∧
      ∀ x, (∃ r ∈ regions, r.1 ≤ x ∧ x < r.1 + r.2) ↔ 8 ≤ x ∧ x < 0x50 ∧ ∀ l ∈ twoLines, ¬(l.start ≤ x ∧ x < l.stop) :=
  have maps : Maps twoLines := ⟨by unfold twoLines; decide, by unfold twoLines; decide⟩
  stealMemoryRegion_holes twoLines maps [(twoLines.flatMap Line.text).take 12, (twoLines.flatMap Line.text).drop 12]
    (by decide) (by decide) 8 0x50

end FexEmu.StealMemory
