import FexEmu.Utils.FlexBitSet
/-!
# The 64-bit host allocator

`OSAllocator_64Bit` with its reserved and live regions. The kernel's answers are a parameter of each call. Sums and
differences wrap where those of the code can.
-/
namespace FexEmu.Allocator64

/-! ## Data -/

def pageSize : Nat := 4096

def LOWER_BOUND : Nat := 0x100000000

/-- A region of the host's address space that nothing has been taken from. -/
structure ReservedVMARegion where
  base : Nat
  regionSize : Nat
deriving DecidableEq, Repr

namespace ReservedVMARegion

def regionEnd (r : ReservedVMARegion) : Nat := r.base + r.regionSize

def pages (r : ReservedVMARegion) : Nat := r.regionSize / pageSize

end ReservedVMARegion

/-- A region in use, with a bit for each of its pages. -/
structure LiveVMARegion where
  slabInfo : ReservedVMARegion
  freeSpace : Nat
  lastPageAllocation : Nat
  usedPages : FlexBitSet

/-- `sizeof(LiveVMARegion)` is one page. -/
def getSizeWithFlexSet (size : Nat) : Nat := pageSize + FlexBitSet.size (size / pageSize * 8 % 2 ^ 64)

def sizeOfLiveRegion (size : Nat) : Nat := alignUp (getSizeWithFlexSet size) pageSize

/-- `InitializeVMARegionUsed` without additional data, on memory that is zero. -/
def initializeVMARegionUsed (r : ReservedVMARegion) : LiveVMARegion where
  slabInfo := r
  freeSpace := (r.regionSize + 2 ^ 64 - sizeOfLiveRegion r.regionSize) % 2 ^ 64
  lastPageAllocation := sizeOfLiveRegion r.regionSize / pageSize % 2 ^ 32
  usedPages := FlexBitSet.memSet (fun _ => 0) (sizeOfLiveRegion r.regionSize / pageSize)

/-- The lists of `OSAllocator_64Bit`. -/
structure Allocator where
  reservedRegions : List ReservedVMARegion
  liveRegions : List LiveVMARegion

/-- The iterator is an index, the new region is the last of the live ones. -/
def Allocator.makeRegionActive (s : Allocator) (i : Nat) (r : ReservedVMARegion) : Allocator where
  reservedRegions := s.reservedRegions.eraseIdx i
  liveRegions := s.liveRegions ++ [initializeVMARegionUsed r]

/-! ## The search for pages -/

/-- How many of the pages are left at the first one that is used, from the lowest one up. -/
def remainingBackward (used : FlexBitSet) (currentPage : Nat) : Nat → Nat
  | 0 => 0
  | remaining + 1 =>
    if used.get (currentPage - (remaining + 1)) then remaining + 1 else remainingBackward used currentPage remaining

def remainingForward (used : FlexBitSet) (currentPage : Nat) : Nat → Nat
  | 0 => 0
  | remaining + 1 =>
    if used.get (currentPage + remaining) then remaining + 1 else remainingForward used currentPage remaining

def slideBackward (used : FlexBitSet) : Nat → Nat
  | 0 => 0
  | currentPage + 1 => if used.get currentPage then currentPage + 1 else slideBackward used currentPage

def backwardScan (used : FlexBitSet) (numberOfPages : Nat) : Nat → Nat → Nat
  | 0, _ => 0
  | fuel + 1, currentPage =>
    if currentPage < numberOfPages then 0
    else
      match remainingBackward used currentPage numberOfPages with
      | 0 => slideBackward used (currentPage - numberOfPages)
      | remaining + 1 => backwardScan used numberOfPages fuel (currentPage - (remaining + 1))

def forwardScan (used : FlexBitSet) (numberOfPages lastPage : Nat) : Nat → Nat → Nat
  | 0, _ => 0
  | fuel + 1, currentPage =>
    if lastPage ≤ currentPage then 0
    else
      match remainingForward used currentPage numberOfPages with
      | 0 => currentPage
      | remaining + 1 => forwardScan used numberOfPages lastPage fuel (currentPage + (remaining + 1))

def lastAllocation (r : LiveVMARegion) : Option Nat → Nat
  | some startingPosition => (startingPosition - r.slabInfo.base) / pageSize
  | none => r.lastPageAllocation

def allocatedPage (r : LiveVMARegion) (length : Nat) (startingPosition : Option Nat) : Nat :=
  let numberOfPages := length / pageSize
  if length ≤ r.freeSpace then
    let lastAllocation := lastAllocation r startingPosition
    let lastPage := (r.slabInfo.pages + 2 ^ 64 - numberOfPages) % 2 ^ 64
    let page := backwardScan r.usedPages numberOfPages (lastAllocation + 1) lastAllocation
    if page = 0 then forwardScan r.usedPages numberOfPages lastPage (lastPage - lastAllocation + 1) lastAllocation
    else page
  else 0

/-! ## Mmap -/

/-- What the kernel answers to the mappings of a call. -/
structure Kernel where
  /-- The error of a mapping at a fixed address, if it fails. -/
  mmapFixed : Nat → Nat → Option Nat
  /-- A length of zero is `EINVAL`. -/
  zero : ∀ addr, mmapFixed addr 0 ≠ none
  /-- The answer to a call that is handed to the kernel. -/
  mmap : Except Nat Nat

/-- The arguments of Mmap, and the host that it asks. -/
structure MmapCall where
  addr : Nat
  length : Nat
  mapFixed : Bool
  mapFixedNoReplace : Bool
  fd : Int
  offset : Nat
  kernel : Kernel

/-- The errors that the allocator returns; it passes the kernel's on. -/
inductive Error
  | EINVAL
  | EOVERFLOW
  | EEXIST
  | ENOMEM
  | kernel (errno : Nat)
deriving DecidableEq, Repr

/-- What `CheckIfRangeFits` returns. -/
inductive Fits
  | none
  | failed (errno : Nat)
  | placed
deriving DecidableEq, Repr

/-- `AllocatedOffset` is captured by reference: it is set before the kernel is asked. -/
def checkIfRangeFits (k : Kernel) (r : LiveVMARegion) (length : Nat) (startingPosition : Option Nat)
    (allocatedOffset : Nat) : Nat × Fits :=
  let page := allocatedPage r length startingPosition
  if page = 0 then (allocatedOffset, .none)
  else
    let offset := r.slabInfo.base + page * pageSize
    match k.mmapFixed offset length with
    | some errno => (offset, .failed errno)
    | none => (offset, .placed)

/-- The loop over the live regions, with the index of the one that fits. -/
def placeLive (k : Kernel) (length : Nat) : List LiveVMARegion → Nat → Nat → Nat × Option Nat
  | [], _, allocatedOffset => (allocatedOffset, none)
  | r :: rest, i, allocatedOffset =>
    match checkIfRangeFits k r length none allocatedOffset with
    | (offset, .placed) => (offset, some i)
    | (offset, _) => placeLive k length rest (i + 1) offset

def placeAgain (k : Kernel) (length : Nat) : Nat → Allocator → Nat → Allocator × Nat × Option Nat
  | 0, s, allocatedOffset => (s, allocatedOffset, none)
  | fuel + 1, s, allocatedOffset =>
    match placeLive k length s.liveRegions 0 allocatedOffset with
    | (offset, some i) => (s, offset, some i)
    | (offset, none) =>
      let lengthPlusManagedData := (length + sizeOfLiveRegion length) % 2 ^ 64
      match s.reservedRegions.findIdx? (fun r => lengthPlusManagedData ≤ r.regionSize) with
      | none => (s, offset, none)
      | some j =>
        match s.reservedRegions[j]? with
        | none => (s, offset, none)
        | some r => placeAgain k length fuel (s.makeRegionActive j r) offset

def lookupRegion (s : Allocator) (addr addrEnd : Nat) : Allocator × Option Nat :=
  match s.liveRegions.findIdx? (fun r => r.slabInfo.base ≤ addr ∧ addr < r.slabInfo.regionEnd) with
  | some i => (s, some i)
  | none =>
    match s.reservedRegions.findIdx? (fun r => r.base ≤ addr ∧ addrEnd < r.regionEnd) with
    | none => (s, none)
    | some j =>
      match s.reservedRegions[j]? with
      | none => (s, none)
      | some r => (s.makeRegionActive j r, some s.liveRegions.length)

def setPages (used : FlexBitSet) (mappedBegin : Nat) : Nat → FlexBitSet
  | 0 => used
  | n + 1 => (setPages used mappedBegin n).set (mappedBegin + n)

def trackPages (r : LiveVMARegion) (allocatedOffset length : Nat) : LiveVMARegion :=
  let mappedBegin := (allocatedOffset - r.slabInfo.base) / pageSize
  { r with
    usedPages := setPages r.usedPages mappedBegin (length / pageSize)
    lastPageAllocation := (mappedBegin + length / pageSize) % 2 ^ 32
    freeSpace := (r.freeSpace + 2 ^ 64 - length) % 2 ^ 64 }

def Allocator.track (s : Allocator) (i allocatedOffset length : Nat) : Allocator :=
  { s with liveRegions := s.liveRegions.modify i (trackPages · allocatedOffset length) }

def mmapFixed (c : MmapCall) (s : Allocator) (length : Nat) : Option Nat → Allocator × Except Error Nat
  | none => (s, .error .ENOMEM)
  | some i =>
    match s.liveRegions[i]? with
    | none => (s, .error .ENOMEM)
    | some r =>
      if c.mapFixedNoReplace then
        if checkIfRangeFits c.kernel r length (some c.addr) 0 = (c.addr, .placed) then
          (s.track i c.addr length, .ok c.addr)
        else (s, .error .EEXIST)
      else
        match c.kernel.mmapFixed c.addr length with
        | some errno => (s, .error (.kernel errno))
        | none => (s.track i c.addr length, .ok c.addr)

def tryHint (c : MmapCall) (s : Allocator) (length : Nat) : Option Nat → Nat × Option Nat
  | none => (0, none)
  | some i =>
    match s.liveRegions[i]? with
    | none => (0, none)
    | some r =>
      match checkIfRangeFits c.kernel r length (some c.addr) 0 with
      | (offset, .placed) => if offset = c.addr then (offset, some i) else (offset, none)
      | (offset, _) => (offset, none)

/-- The end of the call: the pages are tracked if a region was found. -/
def finishMmap (length : Nat) : Allocator × Nat × Option Nat → Allocator × Except Error Nat
  | (s, allocatedOffset, some i) => (s.track i allocatedOffset length, .ok allocatedOffset)
  | (s, allocatedOffset, none) => (s, if allocatedOffset = 0 then .error .ENOMEM else .ok allocatedOffset)

def mmapAnywhere (c : MmapCall) (s : Allocator) (length : Nat) (i : Option Nat) : Allocator × Except Error Nat :=
  match tryHint c s length i with
  | (offset, some i) => finishMmap length (s, offset, some i)
  | (offset, none) => finishMmap length (placeAgain c.kernel length (s.reservedRegions.length + 1) s offset)

/-- What a call returns, or that it was handed to the kernel. -/
inductive Result
  | handed (answer : Except Nat Nat)
  | error (e : Error)
  | ok (addr : Nat)
deriving DecidableEq

def Result.ofExcept : Except Error Nat → Result
  | .error e => .error e
  | .ok addr => .ok addr

def MmapCall.fixed (c : MmapCall) : Bool := c.mapFixed || c.mapFixedNoReplace

/-- The state after the lookup of the address, with the index of its region. -/
def MmapCall.lookup (c : MmapCall) (s : Allocator) : Allocator × Option Nat :=
  if c.fixed ∨ c.addr ≠ 0 then lookupRegion s c.addr ((c.addr + alignUp c.length pageSize) % 2 ^ 64) else (s, none)

def mmap (s : Allocator) (c : MmapCall) : Allocator × Result :=
  if c.addr ≠ 0 ∧ c.addr < LOWER_BOUND then (s, .handed c.kernel.mmap)
  else if c.addr % pageSize ≠ 0 then (s, .error .EINVAL)
  else if c.fd ≠ -1 ∧ c.offset % pageSize ≠ 0 then (s, .error .EINVAL)
  else if 2 ^ 64 ≤ c.addr + c.length then (s, .error .EOVERFLOW)
  else
    let length := alignUp c.length pageSize
    let found := c.lookup s
    let result := if c.fixed then mmapFixed c found.1 length found.2 else mmapAnywhere c found.1 length found.2
    (result.1, .ofExcept result.2)

/-! ## Munmap -/

/-- The number of pages that were used, and the set without them. -/
def clearPages (used : FlexBitSet) (slabPageBegin : Nat) : Nat → Nat × FlexBitSet
  | 0 => (0, used)
  | n + 1 =>
    let (freed, used) := clearPages used slabPageBegin n
    let (value, used) := used.testAndClear (slabPageBegin + n)
    (freed + (if value then 1 else 0), used)

def untrackPages (r : LiveVMARegion) (addr length : Nat) : LiveVMARegion :=
  let slabPageBegin := (addr - r.slabInfo.base) / pageSize % 2 ^ 32
  let (freedPages, usedPages) := clearPages r.usedPages slabPageBegin (length / pageSize)
  { r with
    usedPages := usedPages
    freeSpace := (r.freeSpace + freedPages * 4096) % 2 ^ 64
    lastPageAllocation := min r.lastPageAllocation slabPageBegin }

/-- Munmap hands a low address to the host and answers the others itself. -/
inductive MunmapResult
  | handed
  | error (e : Error)
  | ok
deriving DecidableEq, Repr

def munmap (s : Allocator) (addr length : Nat) : Allocator × MunmapResult :=
  if addr < LOWER_BOUND then (s, .handed)
  else if addr % pageSize ≠ 0 then (s, .error .EINVAL)
  else if length % pageSize ≠ 0 then (s, .error .EINVAL)
  else if 2 ^ 64 ≤ addr + length then (s, .error .EOVERFLOW)
  else
    let length := alignUp length pageSize
    match s.liveRegions.findIdx? (fun r => r.slabInfo.base ≤ addr ∧ addr + length < r.slabInfo.regionEnd) with
    | none => (s, .ok)
    | some i => ({ s with liveRegions := s.liveRegions.modify i (untrackPages · addr length) }, .ok)

end FexEmu.Allocator64
