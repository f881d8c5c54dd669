import Mathlib.Tactic
/-!
# The block lookup cache

Three levels map a guest address to host code: `L1`, a direct-mapped table; `L2`, a page table in one backing area; and `L3`,
the map that owns the answer. The dispatcher reads `L1` and `L2` with code of its own.
-/
namespace FexEmu.LookupCache
open Function (update)

/-- A slot of `L1` or of an `L2` page. -/
structure LookupCacheEntry where
  hostCode : UInt64
  guestCode : UInt64
deriving DecidableEq, Repr

/-- What freshly mapped (or `MADV_DONTNEED`ed) memory reads as. -/
def LookupCacheEntry.zero : LookupCacheEntry := ⟨0, 0⟩

/-- The key of BlockLinks. -/
structure BlockLinkTag where
  guestDestination : UInt64
  hostLink : UInt64
deriving DecidableEq, Repr

def BlockLinkTag.lt (a b : BlockLinkTag) : Bool :=
  if a.guestDestination < b.guestDestination then true
  else if a.guestDestination = b.guestDestination then decide (a.hostLink < b.hostLink)
  else false

/-- A delinker is a closure the JIT hands in; only its identity matters here. -/
abbrev Delinker := Nat

def l1Entries : UInt64 := 1 * 1024 * 1024

def l1EntriesMask : UInt64 := l1Entries - 1

def codeSize : Nat := 128 * 1024 * 1024

def entrySize : Nat := 16

def sizePerPage : Nat := 4096 * entrySize

/-- The size of the guest's address space, which is whole pages, and the base of the backing area, which is not null. -/
structure Config where
  virtualMemSize : UInt64
  pageMemory : Nat
  virtualMemSize_pos : 0 < virtualMemSize.toNat
  virtualMemSize_pages : virtualMemSize.toNat % 4096 = 0
  pageMemory_pos : 0 < pageMemory

def defaultConfig : Config where
  virtualMemSize := 0x1000000000
  pageMemory := 0x100000
  virtualMemSize_pos := by decide
  virtualMemSize_pages := by decide
  pageMemory_pos := by decide

/-- `pagePointer` is the `L2` page table (0 for no page), `memory` the backing area. `delinked` records the delinkers that
ran. -/
structure State where
  l1 : UInt64 → LookupCacheEntry
  pagePointer : UInt64 → Nat
  memory : Nat → LookupCacheEntry
  allocateOffset : Nat
  blockList : UInt64 → Option UInt64
  blockLinks : List (BlockLinkTag × Delinker)
  codePages : List (UInt64 × List UInt64)
  delinked : List (BlockLinkTag × Delinker)

def State.init : State where
  l1 _ := .zero
  pagePointer _ := 0
  memory _ := .zero
  allocateOffset := 0
  blockList _ := none
  blockLinks := []
  codePages := []
  delinked := []

def l1Index (address : UInt64) : UInt64 := address &&& l1EntriesMask

variable (c : Config)

def pageIndex (address : UInt64) : UInt64 := (address &&& (c.virtualMemSize - 1)) >>> 12

/-- The page offset as `CacheBlockMapping` and `Erase` take it. -/
def maskedOffset (address : UInt64) : UInt64 := (address &&& (c.virtualMemSize - 1)) &&& 0x0FFF

theorem maskedOffset_eq (a : UInt64) : maskedOffset c a = a &&& 0x0FFF := by
  have hpos := c.virtualMemSize_pos
  have hpages := c.virtualMemSize_pages
  have hlow : (c.virtualMemSize - 1) &&& 0x0FFF = 0x0FFF := by
    apply UInt64.toNat_inj.1
    have hsub : (c.virtualMemSize - 1).toNat = c.virtualMemSize.toNat - 1 := by
      rw [UInt64.toNat_sub_of_le _ _ (by rw [UInt64.le_iff_toNat_le]; exact hpos)]
      rfl
    rw [UInt64.toNat_and, hsub, show (0x0FFF : UInt64).toNat = 2 ^ 12 - 1 from rfl, Nat.and_two_pow_sub_one_eq_mod]
    omega
  rw [maskedOffset, UInt64.and_assoc, hlow]

def slotAt (page : Nat) (offset : UInt64) : Nat := page + entrySize * offset.toNat

/-! ## The operations -/

def setL1 (s : State) (index : UInt64) (e : LookupCacheEntry) : State :=
  { s with l1 := update s.l1 index e }

def clearL2Cache (s : State) : State :=
  { s with pagePointer := fun _ => 0, memory := fun _ => .zero, allocateOffset := 0 }

def clearCache (s : State) : State :=
  { clearL2Cache { s with l1 := fun _ => .zero } with blockLinks := [], blockList := fun _ => none }

/-- The new page, 0 when the backing area is used up, and the next offset. -/
def allocateBackingForPage (s : State) : Nat × Nat :=
  let newBase := s.allocateOffset
  let newEnd := s.allocateOffset + sizePerPage
  if codeSize ≤ newEnd then (0, s.allocateOffset) else (c.pageMemory + newBase, newEnd)

/-- Whether a lookup of `address` finds the backing area used up. -/
def RunsOut (s : State) (address : UInt64) : Prop :=
  s.pagePointer (pageIndex c address) = 0 ∧ codeSize ≤ s.allocateOffset + sizePerPage

instance (s : State) (address : UInt64) : Decidable (RunsOut c s address) :=
  inferInstanceAs (Decidable (_ ∧ _))

/-- `CacheBlockMapping` after its `L1` store; `none` is the retry. -/
def cacheFullMap (s : State) (address hostCode : UInt64) : Option State :=
  let index := pageIndex c address
  let offset := maskedOffset c address
  if s.pagePointer index = 0 then
    let (page, next) := allocateBackingForPage c s
    if page = 0 then none
    else some { s with
      pagePointer := update s.pagePointer index page
      allocateOffset := next
      memory := update s.memory (slotAt page offset) ⟨hostCode, address⟩ }
  else some { s with
    memory := update s.memory (slotAt (s.pagePointer index) offset) ⟨hostCode, address⟩ }

/-- By the time it retries, `Address` has been shifted down to the page index, and that is what the retry is called with. -/
def cacheBlockMapping : Nat → State → UInt64 → UInt64 → State
  | 0, s, _, _ => s
  | fuel + 1, s, address, hostCode =>
    let s := setL1 s (l1Index address) ⟨hostCode, address⟩
    match cacheFullMap c s address hostCode with
    | some s => s
    | none => cacheBlockMapping fuel (clearL2Cache s) (pageIndex c address) hostCode

def findBlock (s : State) (address : UInt64) : UInt64 × State :=
  let e := s.l1 (l1Index address)
  if e.guestCode = address then (e.hostCode, s)
  else
    let page := s.pagePointer (pageIndex c address)
    let e := s.memory (slotAt page (address &&& 0x0FFF))
    if page ≠ 0 ∧ e.guestCode = address then
      (e.hostCode, setL1 s (l1Index address) ⟨e.hostCode, address⟩)
    else
      match s.blockList address with
      | some hostCode => (hostCode, cacheBlockMapping c 2 s address hostCode)
      | none => (0, s)

/-- `std::map::emplace` leaves an existing mapping alone. -/
def addBlockMapping (s : State) (address hostCode : UInt64) : State :=
  let blockList := if s.blockList address = none
    then update s.blockList address (some hostCode) else s.blockList
  setL1 { s with blockList } (l1Index address) ⟨hostCode, address⟩

/-- The links `Erase` severs. -/
def linksTo (s : State) (address : UInt64) : List (BlockLinkTag × Delinker) :=
  s.blockLinks.filter (fun l => l.1.guestDestination = address)

def eraseL1 (s : State) (address : UInt64) : State :=
  let e := s.l1 (l1Index address)
  if e.guestCode = address then setL1 s (l1Index address) { e with guestCode := 0 } else s

def eraseFullMap (s : State) (address : UInt64) : State :=
  let page := s.pagePointer (pageIndex c address)
  if page = 0 then s
  else { s with memory := update s.memory (slotAt page (maskedOffset c address)) .zero }

def erase (s : State) (address : UInt64) : State :=
  let s := { s with
    delinked := s.delinked ++ linksTo s address
    blockLinks := s.blockLinks.filter (fun l => l.1.guestDestination ≠ address)
    blockList := update s.blockList address none }
  eraseFullMap c (eraseL1 s address) address

/-- `BlockLinks.insert`, which keeps the map ordered and never replaces. -/
def insertLink (tag : BlockLinkTag) (d : Delinker) :
    List (BlockLinkTag × Delinker) → List (BlockLinkTag × Delinker)
  | [] => [(tag, d)]
  | l :: ls =>
    if tag = l.1 then l :: ls
    else if tag.lt l.1 then (tag, d) :: l :: ls
    else l :: insertLink tag d ls

def addBlockLink (s : State) (guestDestination hostLink : UInt64) (delinker : Delinker) : State :=
  { s with blockLinks := insertLink ⟨guestDestination, hostLink⟩ delinker s.blockLinks }

/-- The pages `Start >> 12` to `(Start + Length - 1) >> 12`. -/
def pagesOf (start length : UInt64) : List UInt64 :=
  let first := start >>> 12
  let last := (start + length - 1) >>> 12
  (List.range (last.toNat + 1 - first.toNat)).map (fun i => first + UInt64.ofNat i)

/-- `CodePages[page].push_back(address)`; the map is ordered by page. -/
def pushCodePage (page address : UInt64) : List (UInt64 × List UInt64) → List (UInt64 × List UInt64)
  | [] => [(page, [address])]
  | e :: es =>
    if page = e.1 then (e.1, e.2 ++ [address]) :: es
    else if page < e.1 then (page, [address]) :: e :: es
    else e :: pushCodePage page address es

def codePage (pages : List (UInt64 × List UInt64)) (page : UInt64) : List UInt64 :=
  ((pages.find? (fun e => e.1 = page)).map Prod.snd).getD []

def addCodePage (address : UInt64) (r : Bool × State) (page : UInt64) : Bool × State :=
  (r.1 || (codePage r.2.codePages page).isEmpty,
    { r.2 with codePages := pushCodePage page address r.2.codePages })

def addBlockExecutableRange (s : State) (address start length : UInt64) : Bool × State :=
  (pagesOf start length).foldl (addCodePage address) (false, s)

def popcount (v : UInt64) : Nat := (List.range 64).countP (fun i => v.toBitVec.getLsbD i)

/-- The emitted lookup branches to host code, falls through to the compiler, or has indexed the page table past its end. -/
inductive Lookup where
  | branch (hostCode : UInt64)
  | noBlock
  | outsideTable
deriving DecidableEq, Repr

/-- The masked RIP in `x3`. For a size that is not a power of two the code
masks with the size itself. -/
def dispatchMask (rip : UInt64) : UInt64 :=
  if popcount c.virtualMemSize = 1 then rip &&& (c.virtualMemSize - 1) else rip &&& c.virtualMemSize

def dispatchLookup (s : State) (rip : UInt64) : Lookup × State :=
  let e := s.l1 (l1Index rip)
  if e.guestCode = rip then (.branch e.hostCode, s)
  else
    let x3 := dispatchMask c rip
    if c.virtualMemSize.toNat / 4096 ≤ (x3 >>> 12).toNat then (.outsideTable, s)
    else
      let page := s.pagePointer (x3 >>> 12)
      let e := s.memory (slotAt page (x3 &&& 0x0FFF))
      if page = 0 ∨ e.guestCode ≠ rip ∨ e.hostCode = 0 then (.noBlock, s)
      else (.branch e.hostCode, setL1 s (l1Index rip) ⟨e.hostCode, rip⟩)

end FexEmu.LookupCache
