import FexEmu.LinuxSyscalls.VMATracking
/-!
# Tracking of mappings and of self-modifying code

The entry points that follow a successful system call, write-protect guest code and handle the faults of writes to it. What
they ask for is a list of `HostCall`s.
-/
namespace FexEmu.LinuxSyscalls

def pageSize : Nat := 4096

/-- `AlignUp` and `AlignDown` to a page. -/
def alignUp (value : Nat) : Nat := add64 value ((pageSize - value % pageSize) % pageSize)

def alignDown (value : Nat) : Nat := value - value % pageSize

/-- `CONFIG_SMC_*`. -/
inductive SMCChecks
  | none
  | mtrack
  | full
deriving DecidableEq, Repr

/-- `mprotect` to read and, with `writable`, write; `InvalidateGuestCodeRange`. -/
inductive HostCall
  | mprotect (start length : Nat) (writable : Bool)
  | invalidateGuestCodeRange (start length : Nat)
deriving DecidableEq, Repr

/-- The fields of `SyscallHandler` that tracking uses. -/
structure SyscallHandler where
  vmaTracking : VMATracking
  anonSharedId : Nat
  smcChecks : SMCChecks

namespace SyscallHandler

/-- `VMAProt::fromProt`: `PROT_READ`, `PROT_WRITE` and `PROT_EXEC` are the low bits. -/
def fromProt (prot : Nat) : VMAProt := ⟨prot.testBit 0, prot.testBit 1, prot.testBit 2⟩

/-- `VMAFlags::fromFlags`: `MAP_SHARED` is the lowest bit. -/
def fromFlags (flags : Nat) : VMAFlags := ⟨flags.testBit 0⟩

def isAnonymous (flags : Nat) : Bool := flags.testBit 5

def isShmReadOnly (shmflg : Nat) : Bool := shmflg.testBit 12

def isDontUnmap (flags : Nat) : Bool := flags.testBit 2

/-! ## Tracking -/

def mmapResource (h : SyscallHandler) (flags : Nat) (file : Option MRID) : SyscallHandler × Option MRID :=
  if !isAnonymous flags then
    match file with
    | some mrid => ({ h with vmaTracking := h.vmaTracking.emplaceResource mrid ⟨none, 0⟩ }, some mrid)
    | none => (h, none)
  else if (fromFlags flags).shared then
    let mrid : MRID := ⟨anonDev, h.anonSharedId⟩
    ({ h with vmaTracking := h.vmaTracking.emplaceResource mrid ⟨none, 0⟩, anonSharedId := h.anonSharedId + 1 }, some mrid)
  else (h, none)

def trackMmap (h : SyscallHandler) (base size prot flags : Nat) (file : Option MRID) (offset : Nat) : SyscallHandler :=
  let size := alignUp size
  let (h, resource) := h.mmapResource flags file
  { h with vmaTracking := h.vmaTracking.setUnsafe resource base offset size (fromFlags flags) (fromProt prot) }

def trackMunmap (h : SyscallHandler) (base size : Nat) : SyscallHandler :=
  { h with vmaTracking := h.vmaTracking.clearUnsafe base (alignUp size) none }

def trackMprotect (h : SyscallHandler) (base size prot : Nat) : SyscallHandler :=
  { h with vmaTracking := h.vmaTracking.changeUnsafe base (alignUp size) (fromProt prot) }

/-- `TrackMremap`; the old address has to be tracked. -/
def trackMremap (h : SyscallHandler) (oldAddress oldSize newSize flags newAddress : Nat) : Option SyscallHandler :=
  let oldSize := alignUp oldSize
  let newSize := alignUp newSize
  match h.vmaTracking.lookupVMAUnsafe oldAddress with
  | some (k, old) =>
    let oldOffset := sub64 (add64 old.offset oldAddress) k
    let t :=
      if oldSize = 0 ∨ isDontUnmap flags then h.vmaTracking
      else h.vmaTracking.clearUnsafe oldAddress oldSize old.resource
    some { h with vmaTracking := t.setUnsafe old.resource newAddress oldOffset newSize old.flags old.prot }
  | none => none

/-- `TrackShmat`, of a segment of `shmSegsz` bytes. -/
def trackShmat (h : SyscallHandler) (shmid shmSegsz base shmflg : Nat) : SyscallHandler :=
  let mrid : MRID := ⟨shmDev, shmid⟩
  let t := h.vmaTracking.emplaceResource mrid ⟨none, shmSegsz⟩
  { h with vmaTracking := t.setUnsafe (some mrid) base 0 shmSegsz ⟨true⟩ ⟨true, !isShmReadOnly shmflg, false⟩ }

def trackShmdt (h : SyscallHandler) (base : Nat) : SyscallHandler :=
  { h with vmaTracking := (h.vmaTracking.clearShmUnsafe base).1 }

end SyscallHandler

/-! ## Self-modifying code -/

namespace VMATracking

def walk (t : VMATracking) : Nat → Option Nat → List Nat
  | fuel + 1, some k => k :: t.walk fuel (t.vma k).resourceNextVMA
  | _, _ => []

def mirrors (t : VMATracking) (resource : Option MRID) : List VMAEntry :=
  (t.walk t.vmas.entries.length (resource.bind t.firstVMA)).map t.vma

def faultMirror (offset : Nat) (vma : VMAEntry) : List HostCall :=
  if vma.offset ≤ offset ∧ offset < add64 vma.offset vma.length then
    let faultBaseMirrored := add64 (sub64 offset vma.offset) vma.base
    if vma.prot.writable then [.invalidateGuestCodeRange faultBaseMirrored pageSize, .mprotect faultBaseMirrored pageSize true]
    else [.invalidateGuestCodeRange faultBaseMirrored pageSize]
  else []

def handleSegfault (t : VMATracking) (faultAddress : Nat) : Bool × List HostCall :=
  match t.lookupVMAUnsafe faultAddress with
  | some (k, e) =>
    if e.prot.writable then
      let faultBase := alignDown faultAddress
      if e.flags.shared then
        let offset := add64 (sub64 faultBase k) e.offset
        (true, (t.mirrors e.resource).flatMap (faultMirror offset))
      else (true, [.invalidateGuestCodeRange faultBase pageSize, .mprotect faultBase pageSize true])
    else (false, [])
  | none => (false, [])

def protectMirror (offsetBase offsetTop : Nat) (vma : VMAEntry) : List HostCall :=
  let vmaOffsetTop := add64 vma.offset vma.length
  if vma.prot.writable ∧ vma.offset < offsetTop ∧ offsetBase < vmaOffsetTop then
    let mirroredBase := max vma.offset offsetBase
    let mirroredSize := sub64 (min offsetTop vmaOffsetTop) mirroredBase
    [.mprotect (add64 (sub64 mirroredBase vma.offset) vma.base) mirroredSize false]
  else []

def protectMapping (t : VMATracking) (base top k : Nat) (e : VMAEntry) : List HostCall :=
  let mapTop := add64 k e.length
  let protectBase := max k base
  let protectSize := sub64 (min mapTop top) protectBase
  if e.flags.shared then
    let offsetBase := add64 (sub64 protectBase k) e.offset
    let offsetTop := add64 offsetBase protectSize
    (t.mirrors e.resource).flatMap (protectMirror offsetBase offsetTop)
  else if e.prot.writable then [.mprotect protectBase protectSize false]
  else []

/-- The loop of `MarkGuestExecutableRange`, back from the bound `c`. -/
def protectLoop (t : VMATracking) (base top : Nat) : Nat → Nat → List HostCall
  | 0, _ => []
  | fuel + 1, c =>
    match t.vmas.below c with
    | none => []
    | some (k, e) =>
      if add64 k e.length ≤ base then []
      else protectMapping t base top k e ++ t.protectLoop base top fuel k

def markGuestExecutableRange (t : VMATracking) (smcChecks : SMCChecks) (start length : Nat) : List HostCall :=
  let base := alignDown start
  let top := alignUp (add64 start length)
  if smcChecks = .mtrack then t.protectLoop base top top top else []

end VMATracking

end FexEmu.LinuxSyscalls
