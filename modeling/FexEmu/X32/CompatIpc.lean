import FexEmu.X32.Ipc
import FexEmu.X32.Structures
/-!
# The multiplexer of the kernel

What Linux does for `ipc` of a 32-bit program: the lower half of the call word selects the operation, the upper its version.
-/
namespace FexEmu.X32.Compat

open Records FlatMemory

/-- An error without an operation, or an operation and what it may write to the guest's memory if it succeeds. -/
inductive Reply where
  | error (errno : Nat)
  | operation (op : Operation) (writes : IpcOutcome → Memory → Prop)

/-- The host's value is written for the guest, padding aside. -/
def Writes (s : GuestStruct) (m : Memory) (p : Nat) (h : (s.conversion .linux).host.Value) (m' : Memory) : Prop :=
  ∃ v : (s.conversion .linux).guest.Value, m' = Layout.writeTo m p v ∧
    ∀ f ∈ (s.conversion .linux).guest, f.padding = false → v f.key = s.expected h f.key

/-- As Writes, for the structure of SHM_INFO, whose fields are cut. -/
def WritesShmInfo (m : Memory) (p : Nat) (h : shm_info_32.host.Value) (m' : Memory) : Prop :=
  ∃ v : shm_info_32.guest.Value, m' = Layout.writeTo m p v ∧ ∀ f ∈ shm_info_32.guest, v f.key = (h f.key).setWidth _

/-- The operation writes nothing but what the kernel writes by itself. -/
def nothing (o : IpcOutcome) (m' : Memory) : Prop := m' = o.memory

section Commands
variable (m : Memory)

def semctl (semid semnum cmd : BitVec 32) (IPC64 : Bool) (arg : BitVec 32) : Reply :=
  let semid_ds (o : IpcOutcome) (m' : Memory) : Prop :=
    if IPC64 then Writes .semid_ds_64 o.memory arg.toNat o.semid m' else Writes .semid_ds_32 o.memory arg.toNat o.semid m'
  if cmd = IPC_SET then .operation (.semctl semid semnum cmd (.semid (loadSemid m IPC64 arg.toNat))) nothing
  else if cmd = SEM_STAT ∨ cmd = SEM_STAT_ANY ∨ cmd = IPC_STAT then .operation (.semctl semid semnum cmd .filled) semid_ds
  else if cmd = SEM_INFO ∨ cmd = IPC_INFO then
    .operation (.semctl semid semnum cmd .filled) fun o m' => m' = FlatMemory.store o.memory arg.toNat o.info
  else if cmd = GETALL ∨ cmd = SETALL then .operation (.semctl semid semnum cmd (.guest arg)) nothing
  else if cmd = SETVAL then .operation (.semctl semid semnum cmd (.value arg)) nothing
  else if cmd = IPC_RMID ∨ cmd = GETPID ∨ cmd = GETNCNT ∨ cmd = GETZCNT ∨ cmd = GETVAL then
    .operation (.semctl semid semnum cmd .none) nothing
  else .error EINVAL

def msgctl (msqid cmd : BitVec 32) (IPC64 : Bool) (arg : BitVec 32) : Reply :=
  let msqid_ds (o : IpcOutcome) (m' : Memory) : Prop :=
    if IPC64 then Writes .msqid_ds_64 o.memory arg.toNat o.msqid m' else Writes .msqid_ds_32 o.memory arg.toNat o.msqid m'
  if cmd = IPC_SET then .operation (.msgctl msqid cmd (.msqid (loadMsqid m IPC64 arg.toNat))) nothing
  else if cmd = MSG_STAT ∨ cmd = MSG_STAT_ANY ∨ cmd = IPC_STAT then .operation (.msgctl msqid cmd .filled) msqid_ds
  else if cmd = MSG_INFO ∨ cmd = IPC_INFO then
    .operation (.msgctl msqid cmd .filled) fun o m' => m' = FlatMemory.store o.memory arg.toNat o.info
  else if cmd = IPC_RMID then .operation (.msgctl msqid cmd .none) nothing
  else .error EINVAL

def shmctl (shmid cmd : BitVec 32) (IPC64 : Bool) (arg : BitVec 32) : Reply :=
  let shmid_ds (o : IpcOutcome) (m' : Memory) : Prop :=
    if IPC64 then Writes .shmid_ds_64 o.memory arg.toNat o.shmid m' else Writes .shmid_ds_32 o.memory arg.toNat o.shmid m'
  let shminfo (o : IpcOutcome) (m' : Memory) : Prop :=
    if IPC64 then Writes .shminfo_64 o.memory arg.toNat o.shminfo m' else Writes .shminfo_32 o.memory arg.toNat o.shminfo m'
  if cmd = IPC_SET then .operation (.shmctl shmid cmd (.shmid (loadShmid m IPC64 arg.toNat))) nothing
  else if cmd = SHM_STAT ∨ cmd = SHM_STAT_ANY ∨ cmd = IPC_STAT then .operation (.shmctl shmid cmd .filled) shmid_ds
  else if cmd = IPC_INFO then .operation (.shmctl shmid cmd .filled) shminfo
  else if cmd = SHM_INFO then
    .operation (.shmctl shmid cmd .filled) fun o m' => WritesShmInfo o.memory arg.toNat o.shm_info m'
  else if cmd = SHM_LOCK ∨ cmd = SHM_UNLOCK ∨ cmd = IPC_RMID then .operation (.shmctl shmid cmd .none) nothing
  else .error EINVAL

end Commands

/-- The message is left with its type in 32 bits and its text behind it. -/
def received (msgp : Nat) (o : IpcOutcome) (m' : Memory) : Prop :=
  m' = FlatMemory.store (write32 o.memory msgp (o.mtype.setWidth 32)) (msgp + mtextOffset) o.mtext

/-- A negative size is refused here, a negative queue by the operation. -/
def msgrcv (m : Memory) (version first second third ptr fifth : BitVec 32) : Reply :=
  if second.toInt < 0 then .error EINVAL
  else if version = 0 then
    if ptr = 0 then .error EINVAL
    else .operation (.msgrcv first (second.signExtend 64) ((read32 m (ptr.toNat + 4)).signExtend 64) third)
      (received (read32 m ptr.toNat).toNat)
  else .operation (.msgrcv first (second.signExtend 64) (fifth.signExtend 64) third) (received ptr.toNat)

/-- The command of a control operation: its flag for the layout is taken out. -/
def command (cmd : BitVec 32) : BitVec 32 := cmd &&& ~~~IPC_64

def ipc (m : Memory) (call first second third ptr fifth : BitVec 32) : Reply :=
  let version := call >>> 16
  let op := call &&& 0xFFFF
  if op = OP_SEMOP then .operation (.semop first ptr second) nothing
  else if op = OP_SEMGET then .operation (.semget first second third) nothing
  else if op = OP_SEMCTL then
    if ptr = 0 then .error EINVAL
    else semctl m first second (command third) (isIPC64 third) (read32 m ptr.toNat)
  else if op = OP_SEMTIMEDOP then
    let timeout := if fifth = 0 then Option.none else some (timespec32.load m fifth.toNat)
    .operation (.semtimedop first ptr second timeout) nothing
  else if op = OP_MSGSND then
    let mtext := (List.range second.toNat).map fun i => m (ptr.toNat + mtextOffset + i)
    .operation (.msgsnd first ((read32 m ptr.toNat).signExtend 64) mtext (second.signExtend 64) third) nothing
  else if op = OP_MSGRCV then msgrcv m version first second third ptr fifth
  else if op = OP_MSGGET then .operation (.msgget first second) nothing
  else if op = OP_MSGCTL then msgctl m first (command second) (isIPC64 second) ptr
  else if op = OP_SHMAT then
    if version = 1 then .error EINVAL
    else .operation (.shmat first ptr second) fun o m' => m' = write32 o.memory third.toNat o.address
  else if op = OP_SHMDT then .operation (.shmdt ptr) nothing
  else if op = OP_SHMGET then .operation (.shmget first (second.setWidth 64) third) nothing
  else if op = OP_SHMCTL then shmctl m first (command second) (isIPC64 second) ptr
  else .error ENOSYS

/-- It refuses the call with the kernel's error, or asks for the same operation, returns its result, and writes what that may
write. -/
def Follows (k : IpcKernel) (m : Memory) (reply : Reply) (run : IpcRun) : Prop :=
  match reply with
  | .error e => run = refused e m
  | .operation op writes => run.operation = some op ∧
    match (k.answer op m).status with
    | .ok r => run.result = BitVec.ofNat 64 r ∧ writes (k.answer op m) run.memory
    | .error e => run.result = -(BitVec.ofNat 64 e) ∧ run.memory = m

end FexEmu.X32.Compat
