import FexEmu.X32.Wrappers
/-!
# Interprocess communication

The multiplexer `ipc` and some of its operations as direct calls. A handler makes at most one call and then writes to the
guest's memory.
-/
namespace FexEmu.X32

open Records FlatMemory

/-! ## Operations of the kernel -/

/-- A number, an address of the guest, a structure that is passed in, or one that the kernel fills. -/
inductive CtlArg where
  | none
  | value (v : BitVec 32)
  | guest (p : BitVec 32)
  | semid (v : semid64_ds.Value)
  | msqid (v : msqid64_ds.Value)
  | shmid (v : shmid64_ds.Value)
  | filled

/-- An operation with the arguments that the kernel gets. -/
inductive Operation where
  | semop (semid sops nsops : BitVec 32)
  | semget (key nsems semflg : BitVec 32)
  | semctl (semid semnum cmd : BitVec 32) (arg : CtlArg)
  | semtimedop (semid sops nsops : BitVec 32) (timeout : Option timespec32.host.Value)
  | msgsnd (msqid : BitVec 32) (mtype : BitVec 64) (mtext : List Byte) (msgsz : BitVec 64) (msgflg : BitVec 32)
  | msgrcv (msqid : BitVec 32) (msgsz msgtyp : BitVec 64) (msgflg : BitVec 32)
  | msgget (key msgflg : BitVec 32)
  | msgctl (msqid cmd : BitVec 32) (arg : CtlArg)
  | shmat (shmid shmaddr shmflg : BitVec 32)
  | shmdt (shmaddr : BitVec 32)
  | shmget (key : BitVec 32) (size : BitVec 64) (shmflg : BitVec 32)
  | shmctl (shmid cmd : BitVec 32) (arg : CtlArg)

/-- An error or a result, and what the kernel left: structures, bytes, a message, an attachment, and the guest's memory. -/
structure IpcOutcome where
  status : Except Nat Nat
  semid : semid64_ds.Value
  msqid : msqid64_ds.Value
  shmid : shmid64_ds.Value
  shminfo : X32.shminfo.Value
  shm_info : shm_info_32.host.Value
  info : List Byte
  mtype : BitVec 64
  mtext : List Byte
  address : BitVec 32
  memory : Memory

/-! ### Commands -/

def IPC_RMID : BitVec 32 := 0
def IPC_SET : BitVec 32 := 1
def IPC_STAT : BitVec 32 := 2
def IPC_INFO : BitVec 32 := 3
def GETPID : BitVec 32 := 11
def GETVAL : BitVec 32 := 12
def GETALL : BitVec 32 := 13
def GETNCNT : BitVec 32 := 14
def GETZCNT : BitVec 32 := 15
def SETVAL : BitVec 32 := 16
def SETALL : BitVec 32 := 17
def SEM_STAT : BitVec 32 := 18
def SEM_INFO : BitVec 32 := 19
def SEM_STAT_ANY : BitVec 32 := 20
def MSG_STAT : BitVec 32 := 11
def MSG_INFO : BitVec 32 := 12
def MSG_STAT_ANY : BitVec 32 := 13
def SHM_LOCK : BitVec 32 := 11
def SHM_UNLOCK : BitVec 32 := 12
def SHM_STAT : BitVec 32 := 13
def SHM_INFO : BitVec 32 := 14
def SHM_STAT_ANY : BitVec 32 := 15

def IPC_64 : BitVec 32 := 0x100

def ENOSYS : Nat := 38

/-- An operation that fails leaves the guest's memory; one that succeeds changes it only to get all semaphores. A structure
that is passed in stays. No message queue has a negative number. -/
structure IpcDocumented (op : Operation) (m : Memory) (o : IpcOutcome) : Prop where
  errno : ∀ e, o.status = .error e → 0 < e ∧ e < 4096
  result : ∀ r, o.status = .ok r → r < 2 ^ 31
  message : ∀ a b c d r, op = .msgrcv a b c d → o.status = .ok r → o.mtext.length = r
  negative : ∀ a b c d, op = .msgrcv a b c d → a.toInt < 0 → o.status = .error EINVAL
  attached : ∀ a b c r, op = .shmat a b c → o.status = .ok r → r = 0
  memory : (∀ a b c r, op = .semctl a b GETALL c → o.status ≠ .ok r) → o.memory = m
  passed : ∀ a b v, op = .semctl a b IPC_SET (.semid v) → o.semid = v

/-- A kernel whose answers are documented ones. -/
structure IpcKernel where
  answer : Operation → Memory → IpcOutcome
  documented : ∀ op m, IpcDocumented op m (answer op m)

/-- The operation that a handler asked for, if any, its result and the guest's memory. -/
structure IpcRun where
  operation : Option Operation
  result : BitVec 64
  memory : Memory

/-- `return -errno` without a call -/
def refused (errno : Nat) (m : Memory) : IpcRun := ⟨none, -(BitVec.ofNat 64 errno), m⟩

def called (k : IpcKernel) (m : Memory) (op : Operation) (write : IpcOutcome → Memory) : IpcRun :=
  let o := k.answer op m
  match o.status with
  | .ok r => ⟨some op, BitVec.ofNat 64 r, write o⟩
  | .error e => ⟨some op, SYSCALL_ERRNO (-1) (.error e), o.memory⟩

def read32 (m : Memory) (p : Nat) : BitVec 32 := BitVec.ofNat 32 (FlatMemory.load m p 4)

def write32 (m : Memory) (p : Nat) (v : BitVec 32) : Memory := FlatMemory.store m p (ByteMemory.bytes 4 v.toNat)

abbrev Storage := (c : Conversion) → c.guest.Value

section Handlers
variable (k : IpcKernel) (left : Storage) (m : Memory)

/-- `if (IPC64) buf = *buf64; else buf = *buf32;` -/
def loadSemid (IPC64 : Bool) (p : Nat) : semid64_ds.Value := if IPC64 then semid_ds_64.load m p else semid_ds_32.load m p

def loadMsqid (IPC64 : Bool) (p : Nat) : msqid64_ds.Value := if IPC64 then msqid_ds_64.load m p else msqid_ds_32.load m p

def loadShmid (IPC64 : Bool) (p : Nat) : shmid64_ds.Value := if IPC64 then shmid_ds_64.load m p else shmid_ds_32.load m p

/-- `*p = h` -/
def assign (c : Conversion) (p : Nat) (h : c.host.Value) : Memory := Layout.writeTo m p (c.toGuest (left c) h)

/-- `if (IPC64) *buf64 = buf; else *buf32 = buf;` -/
def storeSemid (IPC64 : Bool) (p : Nat) (buf : semid64_ds.Value) : Memory :=
  if IPC64 then assign left m semid_ds_64 p buf else assign left m semid_ds_32 p buf

def storeMsqid (IPC64 : Bool) (p : Nat) (buf : msqid64_ds.Value) : Memory :=
  if IPC64 then assign left m msqid_ds_64 p buf else assign left m msqid_ds_32 p buf

def storeShmid (IPC64 : Bool) (p : Nat) (buf : shmid64_ds.Value) : Memory :=
  if IPC64 then assign left m shmid_ds_64 p buf else assign left m shmid_ds_32 p buf

def storeShminfo (IPC64 : Bool) (p : Nat) (si : shminfo.Value) : Memory :=
  if IPC64 then assign left m shminfo_64 p si else assign left m shminfo_32 p si

/-! ### Control operations -/

/-- `semun` is the address of the guest's union, and `rest` what the commands without a use for it pass on. -/
def semctlCommand (semid semnum cmd : BitVec 32) (IPC64 : Bool) (semun : BitVec 32) (rest : CtlArg) : IpcRun :=
  let value := read32 m semun.toNat
  let buf := value.toNat
  if cmd = IPC_SET then
    called k m (.semctl semid semnum cmd (.semid (loadSemid m IPC64 buf))) fun o => storeSemid left o.memory IPC64 buf o.semid
  else if cmd = SEM_STAT ∨ cmd = SEM_STAT_ANY ∨ cmd = IPC_STAT then
    called k m (.semctl semid semnum cmd .filled) fun o => storeSemid left o.memory IPC64 buf o.semid
  else if cmd = SEM_INFO ∨ cmd = IPC_INFO then
    called k m (.semctl semid semnum cmd .filled) fun o => FlatMemory.store o.memory buf o.info
  else if cmd = GETALL ∨ cmd = SETALL then
    called k m (.semctl semid semnum cmd (.guest value)) IpcOutcome.memory
  else if cmd = SETVAL then
    called k m (.semctl semid semnum cmd (.value value)) IpcOutcome.memory
  else if cmd = IPC_RMID ∨ cmd = GETPID ∨ cmd = GETNCNT ∨ cmd = GETZCNT ∨ cmd = GETVAL then
    called k m (.semctl semid semnum cmd rest) IpcOutcome.memory
  else refused EINVAL m

/-- The commands on message queues. `msgun` is the guest's union. -/
def msgctlCommand (msqid cmd : BitVec 32) (IPC64 : Bool) (msgun : BitVec 32) : IpcRun :=
  let buf := msgun.toNat
  if cmd = IPC_SET then
    called k m (.msgctl msqid cmd (.msqid (loadMsqid m IPC64 buf))) IpcOutcome.memory
  else if cmd = MSG_STAT ∨ cmd = MSG_STAT_ANY ∨ cmd = IPC_STAT then
    called k m (.msgctl msqid cmd .filled) fun o => storeMsqid left o.memory IPC64 buf o.msqid
  else if cmd = MSG_INFO ∨ cmd = IPC_INFO then
    called k m (.msgctl msqid cmd .filled) fun o => FlatMemory.store o.memory buf o.info
  else if cmd = IPC_RMID then
    called k m (.msgctl msqid cmd .none) IpcOutcome.memory
  else refused EINVAL m

/-- The commands on shared memory. `shmun` is the guest's union. -/
def shmctlCommand (shmid cmd : BitVec 32) (IPC64 : Bool) (shmun : BitVec 32) : IpcRun :=
  let buf := shmun.toNat
  if cmd = IPC_SET then
    called k m (.shmctl shmid cmd (.shmid (loadShmid m IPC64 buf))) IpcOutcome.memory
  else if cmd = SHM_STAT ∨ cmd = SHM_STAT_ANY ∨ cmd = IPC_STAT then
    called k m (.shmctl shmid cmd .filled) fun o => storeShmid left o.memory IPC64 buf o.shmid
  else if cmd = IPC_INFO then
    called k m (.shmctl shmid cmd .filled) fun o => storeShminfo left o.memory IPC64 buf o.shminfo
  else if cmd = SHM_INFO then
    called k m (.shmctl shmid cmd .filled) fun o => assign left o.memory shm_info_32 buf o.shm_info
  else if cmd = SHM_LOCK ∨ cmd = SHM_UNLOCK ∨ cmd = IPC_RMID then
    called k m (.shmctl shmid cmd .none) IpcOutcome.memory
  else refused EINVAL m

def mtextOffset : Nat := 4

def msgsnd (first second third ptr : BitVec 32) : IpcRun :=
  let mtype := (read32 m ptr.toNat).signExtend 64
  let mtext := (List.range second.toNat).map fun i => m (ptr.toNat + mtextOffset + i)
  called k m (.msgsnd first mtype mtext (second.setWidth 64) third) IpcOutcome.memory

/-- The second version, where the arguments are those of the call. -/
def msgrcvDirect (first second third ptr fifth : BitVec 32) : IpcRun :=
  called k m (.msgrcv first (second.setWidth 64) (fifth.setWidth 64) third) fun o =>
    FlatMemory.store (write32 o.memory ptr.toNat (o.mtype.setWidth 32)) (ptr.toNat + mtextOffset) o.mtext

/-- The first version, whose structure holds the buffer's address and the wanted type, and then the received one. -/
def msgrcvKludge (first second third ptr : BitVec 32) : IpcRun :=
  let msgp := (read32 m ptr.toNat).toNat
  let msgtyp := read32 m (ptr.toNat + 4)
  called k m (.msgrcv first (second.setWidth 64) (msgtyp.signExtend 64) third) fun o =>
    FlatMemory.store (write32 o.memory (ptr.toNat + 4) (o.mtype.setWidth 32)) (msgp + mtextOffset) o.mtext

/-! ### The multiplexer -/

def OP_SEMOP : BitVec 32 := 1
def OP_SEMGET : BitVec 32 := 2
def OP_SEMCTL : BitVec 32 := 3
def OP_SEMTIMEDOP : BitVec 32 := 4
def OP_MSGSND : BitVec 32 := 11
def OP_MSGRCV : BitVec 32 := 12
def OP_MSGGET : BitVec 32 := 13
def OP_MSGCTL : BitVec 32 := 14
def OP_SHMAT : BitVec 32 := 21
def OP_SHMDT : BitVec 32 := 22
def OP_SHMGET : BitVec 32 := 23
def OP_SHMCTL : BitVec 32 := 24

/-- `cmd & 0xFF` -/
def command (cmd : BitVec 32) : BitVec 32 := cmd &&& 0xFF

/-- `cmd & 0x100` -/
def isIPC64 (cmd : BitVec 32) : Bool := cmd &&& IPC_64 ≠ 0

/-- The whole call word selects the operation, its version included. -/
def ipc (call first second third ptr fifth : BitVec 32) : IpcRun :=
  if call = OP_SEMOP then called k m (.semop first ptr second) IpcOutcome.memory
  else if call = OP_SEMGET then called k m (.semget first second third) IpcOutcome.memory
  else if call = OP_SEMCTL then semctlCommand k left m first second (command third) (isIPC64 third) ptr .none
  else if call = OP_SEMTIMEDOP then
    let timeout := if fifth = 0 then Option.none else some (timespec32.load m fifth.toNat)
    called k m (.semtimedop first ptr second timeout) IpcOutcome.memory
  else if call = OP_MSGSND then msgsnd k m first second third ptr
  else if call = OP_MSGRCV then
    if call >>> 16 ≠ 0 then msgrcvDirect k m first second third ptr fifth else msgrcvKludge k m first second third ptr
  else if call = OP_MSGGET then called k m (.msgget first second) IpcOutcome.memory
  else if call = OP_MSGCTL then msgctlCommand k left m first (command second) (isIPC64 second) ptr
  else if call = OP_SHMAT then
    called k m (.shmat first ptr second) fun o => write32 o.memory third.toNat o.address
  else if call = OP_SHMDT then called k m (.shmdt ptr) IpcOutcome.memory
  else if call = OP_SHMGET then called k m (.shmget first (second.setWidth 64) third) IpcOutcome.memory
  else if call = OP_SHMCTL then shmctlCommand k left m first (command second) (isIPC64 second) ptr
  else refused ENOSYS m

/-- The command selects the case with its `IPC_64`, and the union is taken for its address. -/
def semctl (semid semnum cmd semun : BitVec 32) : IpcRun :=
  semctlCommand k left m semid semnum cmd (isIPC64 cmd) semun (.value semun)

def shmat (shmid shmaddr shmflg : BitVec 32) : IpcRun :=
  let run := called k m (.shmat shmid shmaddr shmflg) IpcOutcome.memory
  match (k.answer (.shmat shmid shmaddr shmflg) m).status with
  | .ok _ => { run with result := (k.answer (.shmat shmid shmaddr shmflg) m).address.setWidth 64 }
  | .error _ => run

def shmdt (shmaddr : BitVec 32) : IpcRun := called k m (.shmdt shmaddr) IpcOutcome.memory

end Handlers

end FexEmu.X32
