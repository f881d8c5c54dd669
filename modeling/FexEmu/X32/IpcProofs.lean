import FexEmu.X32.CompatIpc
/-!
# When the multiplexer does what the kernel does

When the handler asks for the kernel's operation and writes what the kernel writes.
-/
namespace FexEmu.X32

open Records FlatMemory
open List (forall_mem_cons not_mem_nil mem_cons)

/-! ## Conditions -/

def operations : List (BitVec 32) :=
  [OP_SEMOP, OP_SEMGET, OP_SEMCTL, OP_SEMTIMEDOP, OP_MSGSND, OP_MSGRCV, OP_MSGGET, OP_MSGCTL, OP_SHMAT, OP_SHMDT, OP_SHMGET,
    OP_SHMCTL]

def semCommands : List (BitVec 32) :=
  [IPC_SET, SEM_STAT, SEM_STAT_ANY, IPC_STAT, SEM_INFO, IPC_INFO, GETALL, SETALL, SETVAL, IPC_RMID, GETPID, GETNCNT, GETZCNT,
    GETVAL]

def msgCommands : List (BitVec 32) := [IPC_SET, MSG_STAT, MSG_STAT_ANY, IPC_STAT, MSG_INFO, IPC_INFO, IPC_RMID]

def shmCommands : List (BitVec 32) :=
  [IPC_SET, SHM_STAT, SHM_STAT_ANY, IPC_STAT, IPC_INFO, SHM_INFO, SHM_LOCK, SHM_UNLOCK, IPC_RMID]

/-- A command without bits above its number but the flag for the layout. -/
def Plain (cmd : BitVec 32) : Prop := cmd &&& 0xFFFFFE00 = 0

section Conditions
variable (k : IpcKernel) (left : Storage) (m : Memory)

/-- The kernel accepts the operation. -/
def Succeeds (op : Operation) : Prop := ∃ r, (k.answer op m).status = .ok r

/-- The padding of a structure in memory is what the storage of the converted one held. -/
def PaddingThere (c : Conversion) (p : Nat) : Prop :=
  ∀ f ∈ c.guest, f.padding = true → c.guest.readFrom m p f.key = left c f.key

/-- Outside of the text, a type stored at p is a type stored at q. -/
def TypeInPlace (p q : Nat) (mtype : BitVec 32) (size : Nat) : Prop :=
  ∀ a, a < q + mtextOffset ∨ q + mtextOffset + size ≤ a → write32 m p mtype a = write32 m q mtype a

/-- When semctl is translated as the kernel's compat entry does it. -/
def SemctlSound (semid semnum cmd ptr : BitVec 32) : Prop :=
  let buf := (read32 m ptr.toNat).toNat
  command cmd ∈ semCommands → Plain cmd ∧ ptr ≠ 0 ∧
    (command cmd = IPC_SET → Succeeds k m (.semctl semid semnum IPC_SET (.semid (loadSemid m (isIPC64 cmd) buf))) →
      PaddingThere left m (if isIPC64 cmd then semid_ds_64 else semid_ds_32) buf)

/-- When msgctl is. -/
def MsgctlSound (msqid cmd : BitVec 32) : Prop :=
  command cmd ∈ msgCommands → Plain cmd ∧
    (command cmd = MSG_STAT ∨ command cmd = MSG_STAT_ANY ∨ command cmd = IPC_STAT → isIPC64 cmd = false →
      let op : Operation := .msgctl msqid (command cmd) .filled
      Succeeds k m op → (left msqid_ds_32 .msg_qbytes : BitVec 16) = saturate _ ((k.answer op m).msqid .msg_qbytes))

/-- When shmctl is. -/
def ShmctlSound (cmd : BitVec 32) : Prop := command cmd ∈ shmCommands → Plain cmd

/-- When the old form of msgrcv is: the type is stored four bytes past the pointer, not in the message. -/
def MsgrcvSound (first second third ptr : BitVec 32) : Prop :=
  let msgp := (read32 m ptr.toNat).toNat
  let op : Operation := .msgrcv first (second.setWidth 64) ((read32 m (ptr.toNat + 4)).signExtend 64) third
  let o := k.answer op m
  second.toNat < 2 ^ 31 ∧ ptr ≠ 0 ∧
    (Succeeds k m op → TypeInPlace o.memory (ptr.toNat + 4) msgp (o.mtype.setWidth 32) o.mtext.length)

/-- Nothing is asked of a call without an operation. -/
structure IpcSound (call first second third ptr : BitVec 32) : Prop where
  version : call &&& 0xFFFF ∈ operations → call >>> 16 = 0
  semctl : call &&& 0xFFFF = OP_SEMCTL → SemctlSound k left m first second third ptr
  msgsnd : call &&& 0xFFFF = OP_MSGSND → second.toNat < 2 ^ 31
  msgrcv : call &&& 0xFFFF = OP_MSGRCV → MsgrcvSound k m first second third ptr
  msgctl : call &&& 0xFFFF = OP_MSGCTL → MsgctlSound k left m first second
  shmctl : call &&& 0xFFFF = OP_SHMCTL → ShmctlSound second

end Conditions

/-! ## Words -/

theorem command_compat (cmd : BitVec 32) : command (Compat.command cmd) = command cmd := by
  rw [command, Compat.command, BitVec.and_assoc]
  rfl

theorem plain_compat (cmd : BitVec 32) : Plain (Compat.command cmd) ↔ Plain cmd := by
  rw [Plain, Compat.command, BitVec.and_assoc]
  rfl

theorem compat_of_plain {cmd : BitVec 32} (h : Plain cmd) : Compat.command cmd = command cmd := by
  have split : ~~~IPC_64 = 0xFFFFFE00 ||| 0xFF := rfl
  rw [Compat.command, split, BitVec.and_or_distrib_left, show cmd &&& 0xFFFFFE00 = 0#32 from h, BitVec.zero_or, command]

theorem small_number {c : BitVec 32} (h : c.toNat ≤ 0xFF) : Plain c ∧ command c = c := by
  have number : command c = c := by
    apply BitVec.eq_of_toNat_eq
    change c.toNat &&& (2 ^ 8 - 1) = c.toNat
    rw [Nat.and_two_pow_sub_one_eq_mod]
    omega
  refine ⟨?_, number⟩
  rw [Plain, ← number, command, BitVec.and_assoc]
  exact BitVec.and_zero

theorem op_of_version {call : BitVec 32} (h : call >>> 16 = 0) : call &&& 0xFFFF = call := by
  have shifted : call.toNat >>> 16 = 0 := congrArg BitVec.toNat h
  apply BitVec.eq_of_toNat_eq
  change call.toNat &&& (2 ^ 16 - 1) = call.toNat
  rw [Nat.and_two_pow_sub_one_eq_mod]
  omega

theorem operations_bare : ∀ op ∈ operations, op >>> 16 = 0 ∧ op &&& 0xFFFF = op := by
  simp only [operations, forall_mem_cons, not_mem_nil, false_imp_iff, implies_true, and_true]
  decide

theorem signExtend_eq_setWidth_iff (v : BitVec 32) : v.signExtend 64 = v.setWidth 64 ↔ v.toNat < 2 ^ 31 := by
  have sign : v.msb = true ↔ 2 ^ 31 ≤ v.toNat := BitVec.msb_eq_true_iff_two_mul_ge.trans (by omega)
  constructor
  · intro same
    by_contra big
    have msb : v.msb = true := sign.2 (by omega)
    have numbers := congrArg BitVec.toNat same
    rw [BitVec.toNat_signExtend, msb, if_pos rfl, BitVec.toNat_setWidth] at numbers
    omega
  · intro small
    apply BitVec.signExtend_eq_setWidth_of_msb_false
    rw [Bool.eq_false_iff]
    intro msb
    have := sign.1 msb
    omega

theorem toInt_neg_iff (v : BitVec 32) : v.toInt < 0 ↔ ¬ v.toNat < 2 ^ 31 := by
  rw [BitVec.toInt_eq_toNat_cond]
  split <;> omega

/-! ## Runs and replies -/

section Runs
variable {k : IpcKernel} {m : Memory} {op op' : Operation} {write : IpcOutcome → Memory}
  {writes : IpcOutcome → Memory → Prop}

@[simp] theorem called_operation : (called k m op write).operation = some op := by
  unfold called
  cases h : (k.answer op m).status <;> simp [h]

theorem follows_called : Compat.Follows k m (.operation op writes) (called k m op write) ↔
    (Succeeds k m op → writes (k.answer op m) (write (k.answer op m))) := by
  cases h : (k.answer op m).status with
  | ok r =>
    have succeeds : Succeeds k m op := ⟨r, h⟩
    simp [Compat.Follows, called, h, succeeds]
  | error e =>
    have kept : (k.answer op m).memory = m := by
      apply (k.documented op m).memory
      simp [h]
    simp [Compat.Follows, called, h, Succeeds, kept, SYSCALL_ERRNO]

theorem follows_nothing : Compat.Follows k m (.operation op Compat.nothing) (called k m op IpcOutcome.memory) :=
  follows_called.2 fun _ => rfl

theorem follows_called_iff : Compat.Follows k m (.operation op' writes) (called k m op write) ↔
    op = op' ∧ (Succeeds k m op → writes (k.answer op m) (write (k.answer op m))) := by
  constructor
  · intro follows
    have same : op = op' := Option.some.inj (called_operation.symm.trans follows.1)
    subst same
    exact ⟨rfl, follows_called.1 follows⟩
  · rintro ⟨rfl, written⟩
    exact follows_called.2 written

theorem not_follows_called {errno : Nat} {run : IpcRun} (asks : run.operation ≠ none) :
    ¬ Compat.Follows k m (.error errno) run := by
  intro refused
  exact asks (congrArg IpcRun.operation refused)

theorem not_follows_refused {reply : Compat.Reply} {errno : Nat} (other : reply ≠ .error errno) (h : errno < 4096)
    (known : ∀ e, reply = .error e → e < 4096) : ¬ Compat.Follows k m reply (refused errno m) := by
  intro follows
  cases reply with
  | operation op writes => exact absurd follows.1 (Option.some_ne_none op).symm
  | error e =>
    have lt := known e rfl
    have negated : -(BitVec.ofNat 64 errno) = -(BitVec.ofNat 64 e) := congrArg IpcRun.result follows
    have numbers := congrArg BitVec.toNat (neg_injective negated)
    rw [BitVec.toNat_ofNat, BitVec.toNat_ofNat, Nat.mod_eq_of_lt (by omega), Nat.mod_eq_of_lt (by omega)] at numbers
    exact other (congrArg Compat.Reply.error numbers.symm)

end Runs

/-! ## Structures -/

section Structures
variable {s : GuestStruct} {left : Storage} {m : Memory} {p : Nat}

theorem writes_iff_found (ordered : (s.conversion .linux).guest.WellFormed) (live : ∀ v k, s.Live (H := .linux) v k)
    (h : (s.conversion .linux).host.Value) :
    Compat.Writes s m p h (assign left m (s.conversion .linux) p h) ↔ s.Found (left (s.conversion .linux)) h := by
  rw [← GuestStruct.produced_iff_found]
  constructor
  · rintro ⟨v, same, told⟩ f hf used _
    exact ((Layout.writeTo_eq_writeTo ordered).1 same f hf).trans (told f hf used)
  · intro made
    exact ⟨_, rfl, fun f hf used => made f hf used (live _ _)⟩

theorem writes_whole (live : ∀ v k, s.Live (H := .linux) v k)
    (keeps : s.KeepsAll) (h : (s.conversion .linux).host.Value) :
    Compat.Writes s m p h (assign left m (s.conversion .linux) p h) :=
  ⟨_, rfl, fun f hf used => (GuestStruct.whole s keeps).2 _ h f hf used (live _ _)⟩

theorem assign_load_iff (ordered : (s.conversion .linux).guest.WellFormed) (live : ∀ v k, s.Live (H := .linux) v k)
    (keeps : s.KeepsAll)
    (padded : ∀ f ∈ (s.conversion .linux).guest, f.padding = true → ∀ l h, (s.conversion .linux).toGuest l h f.key = l f.key) :
    assign left m (s.conversion .linux) p ((s.conversion .linux).load m p) = m ↔
      PaddingThere left m (s.conversion .linux) p := by
  refine (Layout.writeTo_eq_self ordered).trans ?_
  apply forall₂_congr
  intro f hf
  cases used : f.padding with
  | true => rw [padded f hf used, eq_self, true_imp_iff]
  | false =>
    have back := (GuestStruct.whole s keeps).1 (left _) (s.conversion .linux).host.zero
      ((s.conversion .linux).guest.readFrom m p) f hf used (live _ _)
    simp only [Bool.false_eq_true, false_imp_iff, iff_true]
    exact back.symm

end Structures

theorem semid_ds_32_padded : ∀ f ∈ semid_ds_32.guest, f.padding = true →
    ∀ l h, semid_ds_32.toGuest l h f.key = l f.key := by
  have left_out : ∀ f ∈ semid_ds_32.guest, f.padding = true → f.key ∉ semid_ds_32.fields.returned := by decide
  intro f hf unused l h
  exact Layout.copyInto_not_mem (left_out f hf unused) h l

theorem semid_ds_64_padded : ∀ f ∈ semid_ds_64.guest, f.padding = true →
    ∀ l h, semid_ds_64.toGuest l h f.key = l f.key := by
  have left_out : ∀ f ∈ semid_ds_64.guest, f.padding = true →
      f.key ∉ semid_ds_64.fields.copied ++ semid_ds_64.fields.halves.map Prod.fst ∧
        semid_ds_64.fields.halves.find? (fun p => p.2 = f.key) = none := by decide
  intro f hf unused l h
  obtain ⟨out, no_half⟩ := left_out f hf unused
  have kept : semid_ds_64.fields.toGuest l h f.key = l f.key := by
    simp only [Halves.toGuest, no_half]
    exact Layout.copyInto_not_mem out h l
  exact kept

/-! ## Control operations -/

theorem semCommands_small : ∀ c ∈ semCommands, c.toNat ≤ 0xFF := by
  simp only [semCommands, forall_mem_cons, not_mem_nil, false_imp_iff, implies_true, and_true]
  decide

theorem msgCommands_small : ∀ c ∈ msgCommands, c.toNat ≤ 0xFF := by
  simp only [msgCommands, forall_mem_cons, not_mem_nil, false_imp_iff, implies_true, and_true]
  decide

theorem shmCommands_small : ∀ c ∈ shmCommands, c.toNat ≤ 0xFF := by
  simp only [shmCommands, forall_mem_cons, not_mem_nil, false_imp_iff, implies_true, and_true]
  decide

section Commands
variable {k : IpcKernel} {left : Storage} {m : Memory}

theorem command_follows_iff {commands : List (BitVec 32)} {reply : BitVec 32 → Compat.Reply} {run : BitVec 32 → IpcRun}
    (small : ∀ c ∈ commands, c.toNat ≤ 0xFF) (unknown : ∀ c ∉ commands, reply c = .error EINVAL ∧ run c = refused EINVAL m)
    (asks : ∀ c ∈ commands, (run c).operation ≠ none) (cmd : BitVec 32) :
    Compat.Follows k m (reply (Compat.command cmd)) (run (command cmd)) ↔
      (command cmd ∈ commands → Plain cmd ∧ Compat.Follows k m (reply (command cmd)) (run (command cmd))) := by
  by_cases known : command cmd ∈ commands
  · by_cases plain : Plain cmd
    · simp [known, plain, compat_of_plain plain]
    · have odd : Compat.command cmd ∉ commands := fun mem => plain ((plain_compat cmd).1 (small_number (small _ mem)).1)
      rw [(unknown _ odd).1]
      have differs : ¬ Compat.Follows k m (.error EINVAL) (run (command cmd)) := not_follows_called (asks _ known)
      simp [known, plain, differs]
  · have other : Compat.command cmd ∉ commands := by
      intro mem
      rw [← command_compat, (small_number (small _ mem)).2] at known
      exact known mem
    rw [(unknown _ known).2, (unknown _ other).1]
    exact iff_of_true rfl fun mem => absurd mem known

variable {semid semnum msqid shmid c ptr : BitVec 32} {IPC64 : Bool} {rest : CtlArg}

theorem semctlCommand_unknown (h : c ∉ semCommands) : semctlCommand k left m semid semnum c IPC64 ptr rest = refused EINVAL m := by
  simp only [semCommands, mem_cons, not_mem_nil, or_false, not_or] at h
  simp [semctlCommand, h]

theorem semctlCommand_asks (h : c ∈ semCommands) :
    (semctlCommand k left m semid semnum c IPC64 ptr rest).operation ≠ none := by
  simp only [semCommands, mem_cons, not_mem_nil, or_false] at h
  unfold semctlCommand
  split_ifs <;> simp_all

theorem compat_semctl_unknown (h : c ∉ semCommands) (arg : BitVec 32) :
    Compat.semctl m semid semnum c IPC64 arg = .error EINVAL := by
  simp only [semCommands, mem_cons, not_mem_nil, or_false, not_or] at h
  simp [Compat.semctl, h]

theorem msgctlCommand_unknown (h : c ∉ msgCommands) : msgctlCommand k left m msqid c IPC64 ptr = refused EINVAL m := by
  simp only [msgCommands, mem_cons, not_mem_nil, or_false, not_or] at h
  simp [msgctlCommand, h]

theorem msgctlCommand_asks (h : c ∈ msgCommands) : (msgctlCommand k left m msqid c IPC64 ptr).operation ≠ none := by
  simp only [msgCommands, mem_cons, not_mem_nil, or_false] at h
  unfold msgctlCommand
  split_ifs <;> simp_all

theorem compat_msgctl_unknown (h : c ∉ msgCommands) : Compat.msgctl m msqid c IPC64 ptr = .error EINVAL := by
  simp only [msgCommands, mem_cons, not_mem_nil, or_false, not_or] at h
  simp [Compat.msgctl, h]

theorem shmctlCommand_unknown (h : c ∉ shmCommands) : shmctlCommand k left m shmid c IPC64 ptr = refused EINVAL m := by
  simp only [shmCommands, mem_cons, not_mem_nil, or_false, not_or] at h
  simp [shmctlCommand, h]

theorem shmctlCommand_asks (h : c ∈ shmCommands) : (shmctlCommand k left m shmid c IPC64 ptr).operation ≠ none := by
  simp only [shmCommands, mem_cons, not_mem_nil, or_false] at h
  unfold shmctlCommand
  split_ifs <;> simp_all

theorem compat_shmctl_unknown (h : c ∉ shmCommands) : Compat.shmctl m shmid c IPC64 ptr = .error EINVAL := by
  simp only [shmCommands, mem_cons, not_mem_nil, or_false, not_or] at h
  simp [Compat.shmctl, h]

/-! ### Semaphores -/

theorem storeSemid_load_iff (p : Nat) : storeSemid left m IPC64 p (loadSemid m IPC64 p) = m ↔
    PaddingThere left m (if IPC64 then semid_ds_64 else semid_ds_32) p := by
  cases IPC64
  · exact assign_load_iff (s := .semid_ds_32) (by decide) (fun _ _ => trivial) trivial semid_ds_32_padded
  · exact assign_load_iff (s := .semid_ds_64) (by decide) (fun _ _ => trivial) trivial semid_ds_64_padded

/-- Only a structure that is passed in is written back although the kernel leaves it. -/
theorem semctl_follows_command (known : c ∈ semCommands) :
    Compat.Follows k m (Compat.semctl m semid semnum c IPC64 (read32 m ptr.toNat))
      (semctlCommand k left m semid semnum c IPC64 ptr .none) ↔
    (c = IPC_SET → Succeeds k m (.semctl semid semnum IPC_SET (.semid (loadSemid m IPC64 (read32 m ptr.toNat).toNat))) →
      PaddingThere left m (if IPC64 then semid_ds_64 else semid_ds_32) (read32 m ptr.toNat).toNat) := by
  by_cases set : c = IPC_SET
  · subst set
    simp only [Compat.semctl, semctlCommand, eq_self, if_true, true_imp_iff]
    rw [follows_called]
    apply imp_congr_right
    intro _
    have documented := k.documented (.semctl semid semnum IPC_SET (.semid (loadSemid m IPC64 (read32 m ptr.toNat).toNat))) m
    rw [Compat.nothing, documented.memory (by simp [GETALL, IPC_SET]), documented.passed _ _ _ rfl]
    exact storeSemid_load_iff _
  · simp only [set, false_imp_iff, iff_true]
    simp only [Compat.semctl, semctlCommand, if_neg set]
    by_cases stat : c = SEM_STAT ∨ c = SEM_STAT_ANY ∨ c = IPC_STAT
    · rw [if_pos stat, if_pos stat]
      apply follows_called.2
      intro _
      cases IPC64
      · exact writes_whole (s := .semid_ds_32) (fun _ _ => trivial) trivial _
      · exact writes_whole (s := .semid_ds_64) (fun _ _ => trivial) trivial _
    · simp only [semCommands, mem_cons, not_mem_nil, or_false] at known
      split_ifs
      · exact follows_called.2 fun _ => rfl
      · exact follows_nothing
      · exact follows_nothing
      · exact follows_nothing
      · tauto

theorem msgctl_follows_command (known : c ∈ msgCommands) :
    Compat.Follows k m (Compat.msgctl m msqid c IPC64 ptr) (msgctlCommand k left m msqid c IPC64 ptr) ↔
    (c = MSG_STAT ∨ c = MSG_STAT_ANY ∨ c = IPC_STAT → IPC64 = false →
      let op : Operation := .msgctl msqid c .filled
      Succeeds k m op → (left msqid_ds_32 .msg_qbytes : BitVec 16) = saturate _ ((k.answer op m).msqid .msg_qbytes)) := by
  by_cases stat : c = MSG_STAT ∨ c = MSG_STAT_ANY ∨ c = IPC_STAT
  · have set : c ≠ IPC_SET := by
      rintro rfl
      simp [IPC_SET, MSG_STAT, MSG_STAT_ANY, IPC_STAT] at stat
    simp only [Compat.msgctl, msgctlCommand, if_neg set, stat, if_true, true_imp_iff]
    refine follows_called.trans ?_
    cases IPC64 with
    | true => exact iff_of_true (fun _ => writes_whole (s := .msqid_ds_64) (fun _ _ => trivial) trivial _) nofun
    | false =>
      rw [eq_self, true_imp_iff]
      apply imp_congr_right
      intro _
      exact writes_iff_found (s := .msqid_ds_32) (by decide) (fun _ _ => trivial) _
  · simp only [stat, false_imp_iff, iff_true]
    simp only [Compat.msgctl, msgctlCommand, if_neg stat]
    split_ifs
    · exact follows_nothing
    · exact follows_called.2 fun _ => rfl
    · exact follows_nothing
    · tauto

/-! ### Shared memory -/

theorem writes_shm_info (p : Nat) (h : shm_info_32.host.Value) :
    Compat.WritesShmInfo m p h (assign left m shm_info_32 p h) := by
  have all : ∀ f ∈ shm_info_32.guest, f.key ∈ shm_info_32.fields.returned := by decide
  have fits : ∀ f ∈ shm_info_32.guest, (shm_info_32.guest.type f.key).bits ≤ (shm_info_32.host.type f.key).bits := by decide
  refine ⟨_, rfl, ?_⟩
  intro f hf
  exact (Layout.copyInto_mem (all f hf) _ _).trans (CInt.convert_of_le (fits f hf) _)

theorem shmctl_follows_command :
    Compat.Follows k m (Compat.shmctl m shmid c IPC64 ptr) (shmctlCommand k left m shmid c IPC64 ptr) := by
  simp only [Compat.shmctl, shmctlCommand]
  by_cases set : c = IPC_SET
  · rw [if_pos set, if_pos set]
    exact follows_nothing
  rw [if_neg set, if_neg set]
  by_cases stat : c = SHM_STAT ∨ c = SHM_STAT_ANY ∨ c = IPC_STAT
  · rw [if_pos stat, if_pos stat]
    apply follows_called.2
    intro _
    cases IPC64
    · exact writes_whole (s := .shmid_ds_32) (fun _ _ => trivial) trivial _
    · exact writes_whole (s := .shmid_ds_64) (fun _ _ => trivial) trivial _
  rw [if_neg stat, if_neg stat]
  by_cases info : c = IPC_INFO
  · rw [if_pos info, if_pos info]
    apply follows_called.2
    intro _
    cases IPC64
    · exact writes_whole (s := .shminfo_32) (fun _ _ => trivial) trivial _
    · exact writes_whole (s := .shminfo_64) (fun _ _ => trivial) trivial _
  split_ifs
  · exact follows_called.2 fun _ => writes_shm_info _ _
  · exact follows_nothing
  · tauto

end Commands

/-! ## The multiplexer -/

section Multiplexer
variable {k : IpcKernel} {left : Storage} {m : Memory} {call first second third ptr fifth : BitVec 32}

theorem semctl_follows_iff : Compat.Follows k m (Compat.ipc m OP_SEMCTL first second third ptr fifth)
    (ipc k left m OP_SEMCTL first second third ptr fifth) ↔ SemctlSound k left m first second third ptr := by
  let reply (c : BitVec 32) : Compat.Reply :=
    if ptr = 0 then .error EINVAL else Compat.semctl m first second c (isIPC64 third) (read32 m ptr.toNat)
  let run (c : BitVec 32) : IpcRun := semctlCommand k left m first second c (isIPC64 third) ptr .none
  have unknown : ∀ c ∉ semCommands, reply c = .error EINVAL ∧ run c = refused EINVAL m := by
    intro c hc
    refine ⟨?_, semctlCommand_unknown hc⟩
    simp only [reply]
    split
    · rfl
    · exact compat_semctl_unknown hc _
  have asks : ∀ c ∈ semCommands, (run c).operation ≠ none := fun c hc => semctlCommand_asks hc
  refine (command_follows_iff semCommands_small unknown asks third).trans ?_
  apply imp_congr_right
  intro known
  apply and_congr_right
  intro _
  by_cases null : ptr = 0
  · simp only [reply, null, if_true, ne_eq, not_true_eq_false, false_and, iff_false]
    exact not_follows_called (asks _ known)
  · simp only [reply, null, if_false, ne_eq, not_false_eq_true, true_and]
    exact semctl_follows_command known

theorem msgctl_follows_iff : Compat.Follows k m (Compat.ipc m OP_MSGCTL first second third ptr fifth)
    (ipc k left m OP_MSGCTL first second third ptr fifth) ↔ MsgctlSound k left m first second := by
  have unknown : ∀ c ∉ msgCommands, Compat.msgctl m first c (isIPC64 second) ptr = .error EINVAL ∧
      msgctlCommand k left m first c (isIPC64 second) ptr = refused EINVAL m :=
    fun c hc => ⟨compat_msgctl_unknown hc, msgctlCommand_unknown hc⟩
  refine (command_follows_iff msgCommands_small unknown (fun c hc => msgctlCommand_asks hc) second).trans ?_
  apply imp_congr_right
  intro known
  apply and_congr_right
  intro _
  exact msgctl_follows_command known

theorem shmctl_follows_iff : Compat.Follows k m (Compat.ipc m OP_SHMCTL first second third ptr fifth)
    (ipc k left m OP_SHMCTL first second third ptr fifth) ↔ ShmctlSound second := by
  have unknown : ∀ c ∉ shmCommands, Compat.shmctl m first c (isIPC64 second) ptr = .error EINVAL ∧
      shmctlCommand k left m first c (isIPC64 second) ptr = refused EINVAL m :=
    fun c hc => ⟨compat_shmctl_unknown hc, shmctlCommand_unknown hc⟩
  refine (command_follows_iff shmCommands_small unknown (fun c hc => shmctlCommand_asks hc) second).trans ?_
  apply imp_congr_right
  intro known
  exact and_iff_left shmctl_follows_command

theorem msgsnd_follows_iff : Compat.Follows k m (Compat.ipc m OP_MSGSND first second third ptr fifth)
    (ipc k left m OP_MSGSND first second third ptr fifth) ↔ second.toNat < 2 ^ 31 := by
  rw [← signExtend_eq_setWidth_iff]
  refine follows_called_iff.trans ?_
  simp [Compat.nothing, eq_comm]

theorem received_iff (o : IpcOutcome) (p q : Nat) : Compat.received q o
    (FlatMemory.store (write32 o.memory p (o.mtype.setWidth 32)) (q + mtextOffset) o.mtext) ↔
      TypeInPlace o.memory p q (o.mtype.setWidth 32) o.mtext.length := by
  constructor
  · intro same a outside
    have here := congrFun same a
    rwa [FlatMemory.store_outside outside, FlatMemory.store_outside outside] at here
  · intro same
    funext a
    by_cases outside : a < q + mtextOffset ∨ q + mtextOffset + o.mtext.length ≤ a
    · rw [FlatMemory.store_outside outside, FlatMemory.store_outside outside, same a outside]
    · have inside : q + mtextOffset ≤ a ∧ a < q + mtextOffset + o.mtext.length := by omega
      have stored : ∀ m' : Memory, FlatMemory.store m' (q + mtextOffset) o.mtext a = o.mtext.getD (a - (q + mtextOffset)) 0 := by
        intro m'
        have held := FlatMemory.holds_store m' (q + mtextOffset) o.mtext (a - (q + mtextOffset)) (by omega)
        rwa [Nat.add_sub_cancel' inside.1] at held
      rw [stored, stored]

theorem msgrcv_follows_iff : Compat.Follows k m (Compat.ipc m OP_MSGRCV first second third ptr fifth)
    (ipc k left m OP_MSGRCV first second third ptr fifth) ↔ MsgrcvSound k m first second third ptr := by
  change Compat.Follows k m (Compat.msgrcv m 0 first second third ptr fifth) (msgrcvKludge k m first second third ptr) ↔ _
  have asks : (msgrcvKludge k m first second third ptr).operation ≠ none := by simp [msgrcvKludge]
  simp only [MsgrcvSound, Compat.msgrcv, toInt_neg_iff]
  by_cases small : second.toNat < 2 ^ 31
  · simp only [small, not_true, if_false, if_true, true_and]
    by_cases null : ptr = 0
    · simp only [null, if_true, ne_eq, not_true_eq_false, false_and, iff_false]
      subst null
      exact not_follows_called asks
    · rw [if_neg null, (signExtend_eq_setWidth_iff second).2 small]
      refine follows_called.trans (Iff.trans (imp_congr_right fun _ => received_iff _ _ _) ?_)
      exact (and_iff_right null).symm
  · simp only [small, not_false_eq_true, if_true, false_and, iff_false]
    exact not_follows_called asks

theorem ipc_unknown (h : call ∉ operations) : ipc k left m call first second third ptr fifth = refused ENOSYS m := by
  simp only [operations, mem_cons, not_mem_nil, or_false, not_or] at h
  simp [ipc, h]

theorem compat_unknown (h : call &&& 0xFFFF ∉ operations) : Compat.ipc m call first second third ptr fifth = .error ENOSYS := by
  simp only [operations, mem_cons, not_mem_nil, or_false, not_or] at h
  simp only [Compat.ipc, h, if_false]

/-- Without an operation, this is the error. -/
def Refuses (reply : Compat.Reply) (errno : Nat) : Prop := ∀ e, reply = .error e → e = errno

theorem refuses_operation {op : Operation} {writes : IpcOutcome → Memory → Prop} {errno : Nat} :
    Refuses (.operation op writes) errno := nofun

theorem refuses_error {errno : Nat} : Refuses (.error errno) errno := fun _ same => (Compat.Reply.error.inj same).symm

theorem refuses_semctl {semid semnum c arg : BitVec 32} {IPC64 : Bool} :
    Refuses (Compat.semctl m semid semnum c IPC64 arg) EINVAL := by
  simp only [Compat.semctl]
  split_ifs <;> first | exact refuses_operation | exact refuses_error

theorem refuses_msgctl {msqid c arg : BitVec 32} {IPC64 : Bool} : Refuses (Compat.msgctl m msqid c IPC64 arg) EINVAL := by
  simp only [Compat.msgctl]
  split_ifs <;> first | exact refuses_operation | exact refuses_error

theorem refuses_shmctl {shmid c arg : BitVec 32} {IPC64 : Bool} : Refuses (Compat.shmctl m shmid c IPC64 arg) EINVAL := by
  simp only [Compat.shmctl]
  split_ifs <;> first | exact refuses_operation | exact refuses_error

theorem refuses_msgrcv {version : BitVec 32} : Refuses (Compat.msgrcv m version first second third ptr fifth) EINVAL := by
  simp only [Compat.msgrcv]
  split_ifs <;> first | exact refuses_operation | exact refuses_error

theorem compat_known (h : call &&& 0xFFFF ∈ operations) :
    Refuses (Compat.ipc m call first second third ptr fifth) EINVAL := by
  simp only [operations, mem_cons, not_mem_nil, or_false] at h
  unfold Compat.ipc
  extract_lets version op
  have at_op : op = call &&& 0xFFFF := rfl
  rw [← at_op] at h
  clear_value op
  rcases h with rfl | rfl | rfl | rfl | rfl | rfl | rfl | rfl | rfl | rfl | rfl | rfl
  · exact refuses_operation
  · exact refuses_operation
  · change Refuses (if ptr = 0 then _ else _) _
    split
    · exact refuses_error
    · exact refuses_semctl
  · exact refuses_operation
  · exact refuses_operation
  · exact refuses_msgrcv
  · exact refuses_operation
  · exact refuses_msgctl
  · change Refuses (if version = 1 then _ else _) _
    split
    · exact refuses_error
    · exact refuses_operation
  · exact refuses_operation
  · exact refuses_operation
  · exact refuses_shmctl

theorem not_follows_version (known : call &&& 0xFFFF ∈ operations) (later : call >>> 16 ≠ 0) :
    ¬ Compat.Follows k m (Compat.ipc m call first second third ptr fifth) (ipc k left m call first second third ptr fifth) := by
  have other : call ∉ operations := fun mem => later (operations_bare call mem).1
  rw [ipc_unknown other]
  apply not_follows_refused
  · intro same
    exact absurd (compat_known known _ same) (by decide)
  · decide
  · intro e same
    rw [compat_known known e same]
    decide

theorem sound_of_plain (h : call ∈ [OP_SEMOP, OP_SEMGET, OP_SEMTIMEDOP, OP_MSGGET, OP_SHMAT, OP_SHMDT, OP_SHMGET]) :
    IpcSound k left m call first second third ptr := by
  simp only [mem_cons, not_mem_nil, or_false] at h
  rcases h with rfl | rfl | rfl | rfl | rfl | rfl | rfl <;>
    exact ⟨fun _ => rfl, fun h => absurd h (by decide), fun h => absurd h (by decide), fun h => absurd h (by decide),
      fun h => absurd h (by decide), fun h => absurd h (by decide)⟩

theorem follows_iff_sound : Compat.Follows k m (Compat.ipc m call first second third ptr fifth)
    (ipc k left m call first second third ptr fifth) ↔ IpcSound k left m call first second third ptr := by
  by_cases known : call &&& 0xFFFF ∈ operations
  · by_cases version : call >>> 16 = 0
    · have same := op_of_version version
      rw [same] at known
      simp only [operations, mem_cons, not_mem_nil, or_false] at known
      rcases known with rfl | rfl | rfl | rfl | rfl | rfl | rfl | rfl | rfl | rfl | rfl | rfl
      · exact iff_of_true follows_nothing (sound_of_plain (by decide))
      · exact iff_of_true follows_nothing (sound_of_plain (by decide))
      · refine semctl_follows_iff.trans ⟨fun sound => ⟨fun _ => rfl, fun _ => sound, ?_, ?_, ?_, ?_⟩, fun sound => sound.semctl rfl⟩ <;>
          exact fun other => absurd other (by decide)
      · exact iff_of_true follows_nothing (sound_of_plain (by decide))
      · refine msgsnd_follows_iff.trans ⟨fun sound => ⟨fun _ => rfl, ?_, fun _ => sound, ?_, ?_, ?_⟩, fun sound => sound.msgsnd rfl⟩ <;>
          exact fun other => absurd other (by decide)
      · refine msgrcv_follows_iff.trans ⟨fun sound => ⟨fun _ => rfl, ?_, ?_, fun _ => sound, ?_, ?_⟩, fun sound => sound.msgrcv rfl⟩ <;>
          exact fun other => absurd other (by decide)
      · exact iff_of_true follows_nothing (sound_of_plain (by decide))
      · refine msgctl_follows_iff.trans ⟨fun sound => ⟨fun _ => rfl, ?_, ?_, ?_, fun _ => sound, ?_⟩, fun sound => sound.msgctl rfl⟩ <;>
          exact fun other => absurd other (by decide)
      · have attaches : Compat.Follows k m
            (.operation (.shmat first ptr second) fun o m' => m' = write32 o.memory third.toNat o.address)
            (called k m (.shmat first ptr second) fun o => write32 o.memory third.toNat o.address) :=
          follows_called.2 fun _ => rfl
        exact iff_of_true attaches (sound_of_plain (by decide))
      · exact iff_of_true follows_nothing (sound_of_plain (by decide))
      · exact iff_of_true follows_nothing (sound_of_plain (by decide))
      · refine shmctl_follows_iff.trans ⟨fun sound => ⟨fun _ => rfl, ?_, ?_, ?_, ?_, fun _ => sound⟩, fun sound => sound.shmctl rfl⟩ <;>
          exact fun other => absurd other (by decide)
    · exact iff_of_false (not_follows_version known version) fun sound => version (sound.version known)
  · have bare : call ∉ operations := fun mem => known ((operations_bare call mem).2.symm ▸ mem)
    rw [compat_unknown known, ipc_unknown bare]
    refine iff_of_true rfl ⟨fun mem => absurd mem known, ?_, ?_, ?_, ?_, ?_⟩
    all_goals
      intro op
      exact absurd (by rw [op]; decide) known

end Multiplexer

/-! ## Direct system calls -/

/-- Two runs ask for the same operation and leave the same memory. -/
def Agrees (direct run : IpcRun) : Prop := direct.operation = run.operation ∧ direct.memory = run.memory

/-- Both runs ask for the same attach; run also stores the address at p. -/
def AttachesAt (p : Nat) (direct run : IpcRun) : Prop :=
  direct.operation = run.operation ∧
    (direct = run ∨ run.result = 0 ∧ run.memory = write32 direct.memory p (direct.result.setWidth 32))

section Direct
variable (k : IpcKernel) (left : Storage) (m : Memory)

theorem flagged_not_command (cmd : BitVec 32) : cmd ||| IPC_64 ∉ semCommands := by
  intro mem
  have number : (cmd ||| IPC_64) &&& 0xFF = cmd ||| IPC_64 := (small_number (semCommands_small _ mem)).2
  have flag := congrArg (fun v => v.getLsbD 8) number
  simp [IPC_64] at flag

/-- The direct call refuses all commands with the flag, so it agrees on those that nobody knows. -/
theorem semctl_agrees_iff (semid semnum cmd ptr fifth : BitVec 32) :
    Agrees (semctl k left m semid semnum (cmd ||| IPC_64) (read32 m ptr.toNat))
      (ipc k left m OP_SEMCTL semid semnum (cmd ||| IPC_64) ptr fifth) ↔ command (cmd ||| IPC_64) ∉ semCommands := by
  have direct : semctl k left m semid semnum (cmd ||| IPC_64) (read32 m ptr.toNat) = refused EINVAL m :=
    semctlCommand_unknown (flagged_not_command cmd)
  change Agrees _ (semctlCommand k left m semid semnum (command (cmd ||| IPC_64)) (isIPC64 (cmd ||| IPC_64)) ptr .none) ↔ _
  rw [direct]
  constructor
  · intro agrees known
    exact semctlCommand_asks known agrees.1.symm
  · intro unknown
    rw [semctlCommand_unknown unknown]
    exact ⟨rfl, rfl⟩

theorem shmat_attachesAt (shmid shmaddr shmflg third fifth : BitVec 32) :
    AttachesAt third.toNat (shmat k m shmid shmaddr shmflg) (ipc k left m OP_SHMAT shmid shmflg third shmaddr fifth) := by
  change AttachesAt _ _ (called k m (.shmat shmid shmaddr shmflg) fun o => write32 o.memory third.toNat o.address)
  cases h : (k.answer (.shmat shmid shmaddr shmflg) m).status with
  | error e => exact ⟨by simp [shmat, h], .inl (by simp [shmat, called, h])⟩
  | ok r =>
    have zero : r = 0 := (k.documented (.shmat shmid shmaddr shmflg) m).attached _ _ _ r rfl h
    refine ⟨by simp [shmat, h], .inr ⟨by simp [called, h, zero], ?_⟩⟩
    simp [shmat, called, h]

end Direct

/-- The multiplexer follows the kernel if and only if the version of a known operation is zero and the values that the
handler narrows, writes back or writes elsewhere make no difference. -/
theorem ipc_follows_iff (k : IpcKernel) (left : Storage) (m : Memory) :
    (∀ call first second third ptr fifth : BitVec 32,
      Compat.Follows k m (Compat.ipc m call first second third ptr fifth) (ipc k left m call first second third ptr fifth) ↔
        IpcSound k left m call first second third ptr) ∧
    (∀ semid semnum cmd ptr fifth : BitVec 32,
      Agrees (semctl k left m semid semnum (cmd ||| IPC_64) (read32 m ptr.toNat))
        (ipc k left m OP_SEMCTL semid semnum (cmd ||| IPC_64) ptr fifth) ↔ command (cmd ||| IPC_64) ∉ semCommands) ∧
    (∀ shmid shmaddr shmflg third fifth : BitVec 32,
      AttachesAt third.toNat (shmat k m shmid shmaddr shmflg)
        (ipc k left m OP_SHMAT shmid shmflg third shmaddr fifth)) ∧
    ∀ shmaddr first second third fifth : BitVec 32,
      shmdt k m shmaddr = ipc k left m OP_SHMDT first second third shmaddr fifth :=
  ⟨fun _ _ _ _ _ _ => follows_iff_sound, semctl_agrees_iff k left m, shmat_attachesAt k left m, fun _ _ _ _ _ => rfl⟩

/-! ### A message for an old caller -/

def oneMessage : IpcKernel where
  answer op m :=
    let status : Except Nat Nat :=
      match op with
      | .msgrcv msqid _ _ _ => if msqid.toInt < 0 then .error EINVAL else .ok 1
      | _ => .error EINVAL
    let semid : semid64_ds.Value :=
      match op with
      | .semctl _ _ _ (.semid v) => v
      | _ => fun _ => 0
    ⟨status, semid, fun _ => 0, fun _ => 0, fun _ => 0, fun _ => 0, [], 7, [65], 0, m⟩
  documented op m := by
    refine ⟨?_, ?_, ?_, ?_, ?_, fun _ => rfl, ?_⟩
    case refine_6 =>
      rintro a b v rfl
      rfl
    case refine_4 =>
      rintro a b c d rfl negative
      exact if_pos negative
    case refine_3 =>
      rintro a b c d r rfl answered
      change (if a.toInt < 0 then Except.error EINVAL else Except.ok 1) = Except.ok r at answered
      split at answered <;> cases answered
      rfl
    all_goals
      cases op with
      | msgrcv msqid => by_cases negative : msqid.toInt < 0 <;> simp +contextual [EINVAL, negative]
      | _ => simp [EINVAL]

/-- The arguments at 0x1000: the buffer at 0x2000, and any type. -/
def oldArguments : Memory := write32 (fun _ => 0) 0x1000 0x2000

/-- The received type goes to the arguments, and the buffer has none. -/
theorem ipc_misplaces_type : ¬ Compat.Follows oneMessage oldArguments
    (Compat.ipc oldArguments OP_MSGRCV 5 1 0 0x1000 0) (ipc oneMessage (fun _ _ => 0) oldArguments OP_MSGRCV 5 1 0 0x1000 0) := by
  intro follows
  obtain ⟨_, _, there⟩ := msgrcv_follows_iff.1 follows
  have buffer : (read32 oldArguments (0x1000 : BitVec 32).toNat).toNat = 0x2000 := rfl
  have byte := there ⟨1, rfl⟩ 0x2000 (.inl (by decide))
  exact absurd byte (by decide)

end FexEmu.X32
