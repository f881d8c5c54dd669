import FexEmu.LinuxSyscalls.SMCTracking
/-!
# The 32-bit allocator

`MemAllocator32Bit` keeps a bitmap of the pages of the low 4 GB. The kernel's answers are data of a run, and `Consistent` are
those that it can give. The branches for `SearchDown` off are never taken and left out.
-/
namespace FexEmu.LinuxSyscalls

/-! ## The host -/

/-- What a host page belongs to: a part of a shared memory segment knows the page where the segment would start. -/
inductive PageKind
  | ordinary
  | segment (base : Int)
deriving DecidableEq, Repr

def PageKind.shift (delta : Int) : PageKind → PageKind
  | ordinary => ordinary
  | segment base => segment (base + delta)

/-- The pages that calls of the allocator mapped and none has unmapped since. -/
structure Host where
  pages : Nat → Option PageKind

namespace MemAllocator32Bit

/-- The calls that the allocator makes to the host. -/
inductive KernelCall
  | mmap (addr length prot flags : Nat) (fd offset : Int)
  | munmap (addr length : Nat)
  | mremap (oldAddress oldSize newSize flags newAddress : Nat)
  | shmat (shmid : Int) (shmaddr shmflg : Nat)
  | shmdt (shmaddr : Nat)
  | shmctlStat (shmid : Int)
deriving DecidableEq, Repr

/-- The value that a call returns, or `errno`. -/
abbrev Answer := Except Nat Nat

def eNOMEM : Int := 12
def eINVAL : Int := 22
def eEXIST : Nat := 17
def eOVERFLOW : Int := 75

/-- `MAP_FIXED`, `MAP_FIXED_NOREPLACE` and `X86_64_MAP_32BIT`. -/
def isFixed (flags : Nat) : Bool := flags.testBit 4
def isFixedNoReplace (flags : Nat) : Bool := flags.testBit 20
def isMap32Bit (flags : Nat) : Bool := flags.testBit 6

/-- `MREMAP_MAYMOVE` and `MREMAP_FIXED`. -/
def isMayMove (flags : Nat) : Bool := flags.testBit 0
def isRemapFixed (flags : Nat) : Bool := flags.testBit 1

def withoutMayMove (flags : Nat) : Nat := flags &&& 0xFFFFFFFE

def pageCount (size : Nat) : Nat := (size + 4095) / 4096

def taskSize : Nat := 2 ^ 47

end MemAllocator32Bit

namespace Host

open MemAllocator32Bit

def map (host : Host) (page count : Nat) (kind : Nat → PageKind) : Host where
  pages p := if page ≤ p ∧ p < page + count then some (kind p) else host.pages p

def unmap (host : Host) (page count : Nat) : Host where
  pages p := if page ≤ p ∧ p < page + count then none else host.pages p

/-- What the new page `p` of a moved or grown mapping belongs to. -/
def movedKind (host : Host) (oldPage oldCount newPage p : Nat) : PageKind :=
  (((host.pages (oldPage + min (p - newPage) (oldCount - 1))).map
    (PageKind.shift ((newPage : Int) - oldPage)))).getD .ordinary

/-- A mapping shrunk in place loses its end, any other one takes the place of the old one. -/
def remap (host : Host) (oldPage oldCount newPage newCount : Nat) (dontUnmap : Bool) : Host :=
  if newPage = oldPage ∧ newCount < oldCount then host.unmap (oldPage + newCount) (oldCount - newCount)
  else
    let kind := host.movedKind oldPage oldCount newPage
    (if dontUnmap then host else host.unmap oldPage oldCount).map newPage newCount kind

def detach (host : Host) (page : Nat) : Host where
  pages p := if host.pages p = some (.segment page) then none else host.pages p

/-- The effect of a call, `segsz` being the sizes of the segments. -/
def apply (host : Host) (segsz : Int → Option Nat) : KernelCall → Answer → Host
  | .mmap _ length _ _ _ _, .ok a => host.map (a / 4096) (pageCount length) (fun _ => .ordinary)
  | .munmap addr length, .ok _ => host.unmap (addr / 4096) (pageCount length)
  | .mremap oldAddress oldSize newSize flags _, .ok a =>
    host.remap (oldAddress / 4096) (pageCount oldSize) (a / 4096) (pageCount newSize) (SyscallHandler.isDontUnmap flags)
  | .shmat shmid _ _, .ok a => host.map (a / 4096) (pageCount ((segsz shmid).getD 0)) (fun _ => .segment (a / 4096 : Nat))
  | .shmdt shmaddr, .ok _ => host.detach (shmaddr / 4096)
  | _, _ => host

end Host

namespace MemAllocator32Bit

/-- A fixed mapping is where it was asked for; a kernel that does not know `MAP_FIXED_NOREPLACE` takes the address as a hint
and stays out of the low 4 GB. -/
def Consistent (segsz : Int → Option Nat) : KernelCall → Answer → Prop
  | .mmap addr length _ flags _ _, .ok a =>
    0 < length ∧ a % 4096 = 0 ∧ a + length ≤ taskSize ∧ (a = addr ∨ isFixed flags = false ∧ 2 ^ 32 ≤ a)
  | .munmap addr length, .ok _ => addr % 4096 = 0 ∧ 0 < length ∧ addr + length ≤ taskSize
  | .mremap oldAddress oldSize newSize flags newAddress, .ok a =>
    oldAddress % 4096 = 0 ∧ a % 4096 = 0 ∧ 0 < newSize ∧ oldAddress + oldSize ≤ taskSize ∧ a + newSize ≤ taskSize ∧
      (isRemapFixed flags = true → isMayMove flags = true ∧ a = newAddress ∧
        (a + newSize ≤ oldAddress ∨ oldAddress + oldSize ≤ a)) ∧
      (isMayMove flags = false → a = oldAddress ∧ SyscallHandler.isDontUnmap flags = false)
  | .shmat shmid shmaddr _, .ok a =>
    (segsz shmid).isSome ∧ a % 4096 = 0 ∧ a + (segsz shmid).getD 0 ≤ taskSize ∧
      (shmaddr ≠ 0 → a = shmaddr / 4096 * 4096)
  | .shmdt shmaddr, .ok _ => shmaddr % 4096 = 0
  | .shmctlStat shmid, .ok n => segsz shmid = some n
  | .shmctlStat shmid, .error _ => segsz shmid = none
  | _, .error _ => True

instance (segsz : Int → Option Nat) (c : KernelCall) (a : Answer) : Decidable (Consistent segsz c a) :=
  match c, a with
  | .mmap .., .ok _ => inferInstanceAs (Decidable (_ ∧ _ ∧ _ ∧ (_ ∨ _ ∧ _)))
  | .munmap .., .ok _ => inferInstanceAs (Decidable (_ ∧ _ ∧ _))
  | .mremap .., .ok _ => inferInstanceAs (Decidable (_ ∧ _ ∧ _ ∧ _ ∧ _ ∧ (_ → _ ∧ _ ∧ (_ ∨ _)) ∧ (_ → _ ∧ _)))
  | .shmat .., .ok _ => inferInstanceAs (Decidable (_ ∧ _ ∧ _ ∧ (_ → _)))
  | .shmdt _, .ok _ => inferInstanceAs (Decidable (_ = _))
  | .shmctlStat _, .ok _ => inferInstanceAs (Decidable (_ = _))
  | .shmctlStat _, .error _ => inferInstanceAs (Decidable (_ = _))
  | .mmap .., .error _ => inferInstanceAs (Decidable True)
  | .munmap .., .error _ => inferInstanceAs (Decidable True)
  | .mremap .., .error _ => inferInstanceAs (Decidable True)
  | .shmat .., .error _ => inferInstanceAs (Decidable True)
  | .shmdt _, .error _ => inferInstanceAs (Decidable True)

/-! ## The allocator -/

def baseKey : Nat := 16
def topKey : Nat := 0xFFFFF
def topKey32Bit : Nat := 0x7FFFF

def bitmapSize : Nat := 0x100000

/-- Why a run has no state after it: a bit outside of the bitmap, a call without an answer, an answer that the kernel does
not give. -/
inductive Halt
  | outOfRange
  | noAnswer
  | inconsistent
deriving DecidableEq, Repr

end MemAllocator32Bit

open MemAllocator32Bit

/-- The members of the allocator. `LastKeyLocation` and `LastKeyLocation32Bit` are the top keys. -/
structure MemAllocator32Bit where
  mappedPages : Nat → Bool
  pageToShm : Nat → Option Int
  lastScanLocation : Nat

/-- An allocator and its host, `errno` and the answers to come. -/
structure AllocState where
  alloc : MemAllocator32Bit
  host : Host
  errno : Nat
  answers : List Answer

namespace MemAllocator32Bit

abbrev M := StateT AllocState (Except Halt)

/-- The first 16 pages are taken by the kernel, and the top page as well. -/
def reserved (page : Nat) : Bool := page < 16 || page = topKey

def init : AllocState where
  alloc := ⟨reserved, fun _ => none, topKey⟩
  host := ⟨fun _ => none⟩
  errno := 0
  answers := []

def call (segsz : Int → Option Nat) (c : KernelCall) : M Answer := do
  let s ← get
  match s.answers with
  | [] => throw .noAnswer
  | a :: rest =>
    if Consistent segsz c a then
      set { s with host := s.host.apply segsz c a, answers := rest, errno := match a with | .error e => e | .ok _ => s.errno }
      return a
    else throw .inconsistent

theorem bind_run {α β : Type} {s s' : AllocState} {m : M α} (f : α → M β) {a : α} (h : m s = .ok (a, s')) :
    (m >>= f) s = f a s' := by
  change (m s >>= fun y => f y.1 y.2) = _
  rw [h]
  rfl

def modifyAlloc (f : MemAllocator32Bit → MemAllocator32Bit) : M Unit :=
  modify fun s => { s with alloc := f s.alloc }

/-- `MappedPages.set` and `MappedPages.reset`. -/
def setPage (value : Bool) (page : Nat) : M Unit :=
  if page < bitmapSize then modifyAlloc fun a => { a with mappedPages := Function.update a.mappedPages page value }
  else throw .outOfRange

def setPages (value : Bool) : Nat → Nat → M Unit
  | _, 0 => pure ()
  | page, n + 1 => do
    setPage value page
    setPages value (page + 1) n

def setUsedPages (pageAddr pagesLength : Nat) : M Unit := setPages true pageAddr pagesLength

def setFreePages (pageAddr pagesLength : Nat) : M Unit := setPages false pageAddr pagesLength

def testPage (page : Nat) : M Bool := do
  let s ← get
  if page < bitmapSize then return s.alloc.mappedPages page else throw .outOfRange

def scanDown (start : Nat) : Nat → Nat → M (Option Nat)
  | _, 0 => return none
  | offset, n + 1 => do
    if ← testPage (sub64 start offset) then return some offset
    scanDown start (offset + 1) n

/-- `FindPageRange_TopDown`: the start goes down with each turn. -/
def findPageRange (pages : Nat) : Nat → Nat → M Nat
  | 0, _ => return 0
  | fuel + 1, start => do
    if baseKey ≤ start ∧ start ≤ topKey then
      match ← scanDown start 0 pages with
      | none => return sub64 start pages
      | some offset => findPageRange pages fuel (sub64 start (offset + 1))
    else return 0

def findLowerPage (pages bottomPage lastKey : Nat) : M (Nat × Nat) := do
  let lowerPage ← findPageRange pages (bottomPage + 1) bottomPage
  if lowerPage = 0 then
    let lowerPage ← findPageRange pages (lastKey + 1) lastKey
    return (lastKey, lowerPage)
  else return (bottomPage, lowerPage)

/-- `page << FEX_PAGE_SHIFT`. -/
def pageAddress (page : Nat) : Nat := page * 4096 % 2 ^ 64

def pagesLengthOf (length : Nat) : Nat := alignUp length / 4096

/-- `-errno`. -/
def errnoResult : M Int := do
  let s ← get
  return -(s.errno : Int)

/-- `AllocateNoHint`, a turn for each `goto restart`; every turn takes an answer. -/
def allocateNoHint (segsz : Int → Option Nat) (length prot flags : Nat) (fd offset : Int) (map32Bit : Bool) :
    Nat → Nat → Bool → M Int
  | 0, _, _ => throw .noAnswer
  | fuel + 1, bottomPage, wrapped => do
    let pagesLength := pagesLengthOf length
    let (bottomPage, lowerPage) ← findLowerPage pagesLength bottomPage (if map32Bit then topKey32Bit else topKey)
    let upperPage := add64 lowerPage pagesLength
    if lowerPage = 0 then return -eNOMEM
    let restart : M Int := do
      let s ← get
      if upperPage = topKey then allocateNoHint segsz length prot flags fd offset map32Bit fuel baseKey true
      else if wrapped ∧ s.alloc.lastScanLocation ≤ lowerPage then errnoResult
      else allocateNoHint segsz length prot flags fd offset map32Bit fuel (sub64 bottomPage 1) wrapped
    match ← call segsz (.mmap (pageAddress lowerPage) length prot (flags ||| 0x100000) fd offset) with
    | .error e => if e = eEXIST then restart else errnoResult
    | .ok a =>
      if pageAddress topKey ≤ a then
        let _ ← call segsz (.munmap a length)
        restart
      else
        modifyAlloc fun alloc => { alloc with lastScanLocation := lowerPage }
        setUsedPages lowerPage pagesLength
        return a

def mmap (segsz : Int → Option Nat) (addr length prot flags : Nat) (fd offset : Int) : M Int := do
  let pagesLength := pagesLengthOf length
  let pageAddr := addr / 4096
  let fixed := isFixed flags || isFixedNoReplace flags
  if addr % 4096 ≠ 0 then return -eINVAL
  if fd ≠ -1 ∧ offset % 4096 ≠ 0 then return -eINVAL
  if 0xFFFFFFFF < add64 addr length then return -eOVERFLOW
  if fixed ∧ pageAddr < 16 then return -eINVAL
  let map32Bit := isMap32Bit flags
  let flags := flags &&& 0xFFFFFFBF
  if fixed = false ∨ addr = 0 then
    let s ← get
    let bottomPage :=
      if map32Bit ∧ topKey32Bit ≤ s.alloc.lastScanLocation then topKey32Bit else s.alloc.lastScanLocation
    allocateNoHint segsz length prot flags fd offset map32Bit (s.answers.length + 1) bottomPage false
  else
    match ← call segsz (.mmap (pageAddress pageAddr) (pagesLength * 4096) prot flags fd offset) with
    | .error _ =>
      -- `MAP_FAILED` is above every page too
      if isFixedNoReplace flags then
        let _ ← call segsz (.munmap (2 ^ 64 - 1) length)
        return -(eEXIST : Int)
      else errnoResult
    | .ok a =>
      if pageAddress topKey ≤ a ∧ isFixedNoReplace flags then
        let _ ← call segsz (.munmap a length)
        return -(eEXIST : Int)
      else
        setUsedPages pageAddr pagesLength
        return a

/-- The loop of `munmap` over the pages. -/
def munmapPages (segsz : Int → Option Nat) : Nat → Nat → M Int
  | _, 0 => return 0
  | pageAddr, n + 1 => do
    match ← call segsz (.munmap (pageAddress pageAddr) 4096) with
    | .error _ => errnoResult
    | .ok _ =>
      if ← testPage pageAddr then setPage false pageAddr
      munmapPages segsz (pageAddr + 1) n

def munmap (segsz : Int → Option Nat) (addr length : Nat) : M Int := do
  let pageAddr := addr / 4096
  if addr % 4096 ≠ 0 then return -eINVAL
  if length % 4096 ≠ 0 then return -eINVAL
  if 0xFFFFFFFF < add64 addr length then return -eOVERFLOW
  if pageAddr < 16 then return 0
  munmapPages segsz pageAddr (pagesLengthOf length)

def canExtend : Nat → Nat → M Bool
  | _, 0 => return true
  | page, n + 1 => do
    if ← testPage page then return false
    canExtend (page + 1) n

/-- The second part of `mremap`: a new range is allocated and the mapping moved there. -/
def moveMapping (segsz : Int → Option Nat) (oldAddress oldSize newSize flags : Nat) : M Int := do
  -- `MAP_PRIVATE | MAP_ANONYMOUS`
  let mapped ← mmap segsz 0 newSize 0 0x22 (-1) 0
  if mapped < 0 then return mapped
  match ← call segsz (.mremap oldAddress oldSize newSize (flags ||| 3) mapped.toNat) with
  | .error _ => errnoResult
  | .ok a =>
    if SyscallHandler.isDontUnmap flags = false ∧ a ≠ oldAddress then
      setFreePages (oldAddress / 4096) (pagesLengthOf oldSize)
    setUsedPages (a / 4096) (pagesLengthOf newSize)
    return a

/-- `mremap`. A fixed one that succeeds goes on to the second part. -/
def mremap (segsz : Int → Option Nat) (oldAddress oldSize newSize flags newAddress : Nat) : M Int := do
  let oldPagesLength := pagesLengthOf oldSize
  let newPagesLength := pagesLengthOf newSize
  let oldPageAddr := oldAddress / 4096
  if isRemapFixed flags then
    match ← call segsz (.mremap oldAddress oldSize newSize flags newAddress) with
    | .error _ => errnoResult
    | .ok a =>
      if SyscallHandler.isDontUnmap flags = false then setFreePages oldPageAddr oldPagesLength
      setUsedPages (a / 4096) newPagesLength
      moveMapping segsz oldAddress oldSize newSize flags
  else if newPagesLength < oldPagesLength then
    match ← call segsz (.mremap oldAddress oldSize newSize (withoutMayMove flags) 0) with
    | .error _ => errnoResult
    | .ok a =>
      setFreePages (a / 4096 + newPagesLength) (oldPagesLength - newPagesLength)
      return a
  else if ← canExtend (oldPageAddr + oldPagesLength) (newPagesLength - oldPagesLength) then
    match ← call segsz (.mremap oldAddress oldSize newSize (withoutMayMove flags) 0) with
    | .error _ => if isMayMove flags then moveMapping segsz oldAddress oldSize newSize flags else errnoResult
    | .ok a =>
      setUsedPages (a / 4096) newPagesLength
      return a
  else moveMapping segsz oldAddress oldSize newSize flags

/-! ## Shared memory -/

def shmatFixed (segsz : Int → Option Nat) (shmid : Int) (shmaddr shmflg : Nat) : M (Int × Option Nat) := do
  match ← call segsz (.shmat shmid shmaddr shmflg) with
  | .error _ => return (← errnoResult, none)
  | .ok a =>
    let smallRet := a / 2 ^ 32
    if smallRet ≠ 0 ∧ smallRet ≠ 0xFFFFFFFF then return (-eNOMEM, none)
    modifyAlloc fun alloc => { alloc with pageToShm := Function.update alloc.pageToShm (a / 4096 % 2 ^ 32) (some shmid) }
    match ← call segsz (.shmctlStat shmid) with
    | .ok shmSegsz => setUsedPages (a / 4096) (shmSegsz / 4096)
    | .error _ => pure ()
    return (0, some (a % 2 ^ 32))

/-- The search of `shmat`, a turn for each `goto restart`. -/
def shmatSearch (segsz : Int → Option Nat) (shmid : Int) (pagesLength shmflg : Nat) :
    Nat → Nat → Bool → M (Int × Option Nat)
  | 0, _, _ => throw .noAnswer
  | fuel + 1, bottomPage, wrapped => do
    let (bottomPage, lowerPage) ← findLowerPage pagesLength bottomPage topKey
    let upperPage := add64 lowerPage pagesLength
    if lowerPage = 0 then return (-eNOMEM, none)
    match ← call segsz (.shmat shmid (pageAddress lowerPage) shmflg) with
    | .error _ =>
      let s ← get
      if upperPage = topKey then shmatSearch segsz shmid pagesLength shmflg fuel topKey true
      else if wrapped ∧ s.alloc.lastScanLocation ≤ lowerPage then return (← errnoResult, none)
      else shmatSearch segsz shmid pagesLength shmflg fuel (add64 bottomPage pagesLength) wrapped
    | .ok a =>
      modifyAlloc fun alloc => { alloc with lastScanLocation := lowerPage }
      setUsedPages lowerPage pagesLength
      modifyAlloc fun alloc => { alloc with pageToShm := Function.update alloc.pageToShm (lowerPage % 2 ^ 32) (some shmid) }
      return (0, some (a % 2 ^ 32))

def shmat (segsz : Int → Option Nat) (shmid : Int) (shmaddr shmflg : Nat) : M (Int × Option Nat) := do
  if shmaddr ≠ 0 then shmatFixed segsz shmid shmaddr shmflg
  else
    match ← call segsz (.shmctlStat shmid) with
    | .error _ => return (-eINVAL, none)
    | .ok shmSegsz =>
      let s ← get
      shmatSearch segsz shmid (pagesLengthOf shmSegsz) shmflg (s.answers.length + 1) s.alloc.lastScanLocation false

def shmdt (segsz : Int → Option Nat) (shmaddr : Nat) : M Int := do
  let addrPage := shmaddr / 4096 % 2 ^ 32
  let s ← get
  match s.alloc.pageToShm addrPage with
  | none => return -eINVAL
  | some _ =>
    let result ← call segsz (.shmdt shmaddr)
    modifyAlloc fun alloc => { alloc with pageToShm := Function.update alloc.pageToShm addrPage none }
    match result with
    | .ok _ => return 0
    | .error _ => errnoResult

/-! ## Runs -/

/-- The calls of the guest. -/
inductive Op
  | mmap (addr length prot flags : Nat) (fd offset : Int)
  | munmap (addr length : Nat)
  | mremap (oldAddress oldSize newSize flags newAddress : Nat)
  | shmat (shmid : Int) (shmaddr shmflg : Nat)
  | shmdt (shmaddr : Nat)

def Op.exec (segsz : Int → Option Nat) : Op → M Unit
  | mmap addr length prot flags fd offset => do let _ ← MemAllocator32Bit.mmap segsz addr length prot flags fd offset
  | munmap addr length => do let _ ← MemAllocator32Bit.munmap segsz addr length
  | mremap oldAddress oldSize newSize flags newAddress => do
    let _ ← MemAllocator32Bit.mremap segsz oldAddress oldSize newSize flags newAddress
  | shmat shmid shmaddr shmflg => do let _ ← MemAllocator32Bit.shmat segsz shmid shmaddr shmflg
  | shmdt shmaddr => do let _ ← MemAllocator32Bit.shmdt segsz shmaddr

/-- A call, with the sizes of the segments and the host's answers. -/
structure Step where
  op : Op
  segsz : Int → Option Nat
  answers : List Answer

def Step.exec (step : Step) (s : AllocState) : Except Halt AllocState :=
  (step.op.exec step.segsz { s with answers := step.answers }).map Prod.snd

def run (s : AllocState) : List Step → Except Halt AllocState
  | [] => .ok s
  | step :: steps => (step.exec s).bind fun s' => run s' steps

end MemAllocator32Bit

end FexEmu.LinuxSyscalls
