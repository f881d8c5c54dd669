import FexEmu.X32.Conversion
/-!
# Structures of the system calls

What the operator of a guest's structure passes to the host, and what its constructor takes from it.
-/
namespace FexEmu.X32

open Records

/-! ## Times -/

def timespec32.fields : Copies where
  guest := [field .tv_sec int32_t, field .tv_nsec int32_t]
  passed := [.tv_sec, .tv_nsec]
  returned := [.tv_sec, .tv_nsec]

def timespec32 : Conversion := timespec32.fields.conversion [field .tv_sec int64_t, field .tv_nsec int64_t]

def timeval32.fields : Copies where
  guest := [field .tv_sec int32_t, field .tv_usec int32_t]
  passed := [.tv_sec, .tv_usec]
  returned := [.tv_sec, .tv_usec]

def timeval32 : Conversion := timeval32.fields.conversion [field .tv_sec int64_t, field .tv_usec int64_t]

def itimerval32.fields : Copies where
  guest :=
    [field .it_interval_tv_sec int32_t, field .it_interval_tv_usec int32_t,
     field .it_value_tv_sec int32_t, field .it_value_tv_usec int32_t]
  passed := [.it_interval_tv_sec, .it_interval_tv_usec, .it_value_tv_sec, .it_value_tv_usec]
  returned := [.it_interval_tv_sec, .it_interval_tv_usec, .it_value_tv_sec, .it_value_tv_usec]

def itimerval32 : Conversion := itimerval32.fields.conversion
  [field .it_interval_tv_sec int64_t, field .it_interval_tv_usec int64_t,
   field .it_value_tv_sec int64_t, field .it_value_tv_usec int64_t]

def old_itimerspec32.fields : Copies where
  guest :=
    [field .it_interval_tv_sec int32_t, field .it_interval_tv_nsec int32_t,
     field .it_value_tv_sec int32_t, field .it_value_tv_nsec int32_t]
  passed := [.it_interval_tv_sec, .it_interval_tv_nsec, .it_value_tv_sec, .it_value_tv_nsec]
  returned := [.it_interval_tv_sec, .it_interval_tv_nsec, .it_value_tv_sec, .it_value_tv_nsec]

def old_itimerspec32 : Conversion := old_itimerspec32.fields.conversion
  [field .it_interval_tv_sec int64_t, field .it_interval_tv_nsec int64_t,
   field .it_value_tv_sec int64_t, field .it_value_tv_nsec int64_t]

def compat_tms.fields : Copies where
  guest :=
    [field .tms_utime compat_clock_t, field .tms_stime compat_clock_t, field .tms_cutime compat_clock_t,
     field .tms_cstime compat_clock_t]
  passed := [.tms_utime, .tms_stime, .tms_cutime, .tms_cstime]
  returned := [.tms_utime, .tms_stime, .tms_cutime, .tms_cstime]

def compat_tms : Conversion := compat_tms.fields.conversion
  [field .tms_utime int64_t, field .tms_stime int64_t, field .tms_cutime int64_t, field .tms_cstime int64_t]

def old_utimbuf32.fields : Copies where
  guest := [field .actime old_time32_t, field .modtime old_time32_t]
  passed := [.actime, .modtime]
  returned := [.actime, .modtime]

def old_utimbuf32 : Conversion := old_utimbuf32.fields.conversion [field .actime int64_t, field .modtime int64_t]

def rusage_32.fields : Copies where
  guest :=
    [field .ru_utime_tv_sec int32_t, field .ru_utime_tv_usec int32_t,
     field .ru_stime_tv_sec int32_t, field .ru_stime_tv_usec int32_t,
     field .ru_maxrss compat_long_t, field .ru_ixrss compat_long_t, field .ru_idrss compat_long_t,
     field .ru_isrss compat_long_t, field .ru_minflt compat_long_t, field .ru_majflt compat_long_t,
     field .ru_nswap compat_long_t, field .ru_inblock compat_long_t, field .ru_oublock compat_long_t,
     field .ru_msgsnd compat_long_t, field .ru_msgrcv compat_long_t, field .ru_nsignals compat_long_t,
     field .ru_nvcsw compat_long_t, field .ru_nivcsw compat_long_t]
  passed :=
    [.ru_utime_tv_sec, .ru_utime_tv_usec, .ru_stime_tv_sec, .ru_stime_tv_usec, .ru_maxrss, .ru_ixrss, .ru_idrss, .ru_isrss,
     .ru_minflt, .ru_majflt, .ru_nswap, .ru_inblock, .ru_oublock, .ru_msgsnd, .ru_msgrcv, .ru_nsignals, .ru_nvcsw, .ru_nivcsw]
  returned :=
    [.ru_utime_tv_sec, .ru_utime_tv_usec, .ru_stime_tv_sec, .ru_stime_tv_usec, .ru_maxrss, .ru_ixrss, .ru_idrss, .ru_isrss,
     .ru_minflt, .ru_majflt, .ru_nswap, .ru_inblock, .ru_oublock, .ru_msgsnd, .ru_msgrcv, .ru_nsignals, .ru_nvcsw, .ru_nivcsw]

def rusage_32 : Conversion := rusage_32.fields.conversion
  [field .ru_utime_tv_sec int64_t, field .ru_utime_tv_usec int64_t,
   field .ru_stime_tv_sec int64_t, field .ru_stime_tv_usec int64_t,
   field .ru_maxrss int64_t, field .ru_ixrss int64_t, field .ru_idrss int64_t, field .ru_isrss int64_t,
   field .ru_minflt int64_t, field .ru_majflt int64_t, field .ru_nswap int64_t, field .ru_inblock int64_t,
   field .ru_oublock int64_t, field .ru_msgsnd int64_t, field .ru_msgrcv int64_t, field .ru_nsignals int64_t,
   field .ru_nvcsw int64_t, field .ru_nivcsw int64_t]

def timex32.fields : Copies where
  guest :=
    [field .modes uint32_t, field .offset compat_long_t, field .freq compat_long_t, field .maxerror compat_long_t,
     field .esterror compat_long_t, field .status int32_t, field .constant compat_long_t, field .precision compat_long_t,
     field .tolerance compat_long_t, field .time_tv_sec int32_t, field .time_tv_usec int32_t, field .tick compat_long_t,
     field .ppsfreq compat_long_t, field .jitter compat_long_t, field .shift int32_t, field .stabil compat_long_t,
     field .jitcnt compat_long_t, field .calcnt compat_long_t, field .errcnt compat_long_t, field .stbcnt compat_long_t,
     field .tai int32_t, padding .pad ⟨11 * 32, true⟩]
  passed :=
    [.modes, .offset, .freq, .maxerror, .esterror, .status, .constant, .precision, .tolerance, .time_tv_sec, .time_tv_usec,
     .tick, .ppsfreq, .jitter, .shift, .stabil, .jitcnt, .calcnt, .errcnt, .stbcnt, .tai]
  returned :=
    [.time_tv_sec, .time_tv_usec, .modes, .offset, .freq, .maxerror, .esterror, .status, .constant, .precision, .tolerance,
     .tick, .ppsfreq, .jitter, .shift, .stabil, .jitcnt, .calcnt, .errcnt, .stbcnt, .tai]

def timex32 : Conversion := timex32.fields.conversion
  [field .modes uint32_t, field .offset int64_t, field .freq int64_t, field .maxerror int64_t, field .esterror int64_t,
   field .status int32_t, field .constant int64_t, field .precision int64_t, field .tolerance int64_t,
   field .time_tv_sec int64_t, field .time_tv_usec int64_t, field .tick int64_t, field .ppsfreq int64_t,
   field .jitter int64_t, field .shift int32_t, field .stabil int64_t, field .jitcnt int64_t, field .calcnt int64_t,
   field .errcnt int64_t, field .stbcnt int64_t, field .tai int32_t]

/-! ## Files, signals and limits -/

def flock_32.fields : Copies where
  guest :=
    [field .l_type int16_t, field .l_whence int16_t, field .l_start int32_t, field .l_len int32_t, field .l_pid int32_t]
  passed := [.l_type, .l_whence, .l_start, .l_len, .l_pid]
  returned := [.l_type, .l_whence, .l_start, .l_len, .l_pid]

def flock_32 : Conversion := flock_32.fields.conversion
  [field .l_type int16_t, field .l_whence int16_t, field .l_start int64_t, field .l_len int64_t, field .l_pid int32_t]

def flock64_32.fields : Copies where
  guest :=
    [field .l_type int16_t, field .l_whence int16_t, field .l_start compat_loff_t, field .l_len compat_loff_t,
     field .l_pid compat_pid_t]
  passed := [.l_type, .l_whence, .l_start, .l_len, .l_pid]
  returned := [.l_type, .l_whence, .l_start, .l_len, .l_pid]

def flock64_32 : Conversion := flock64_32.fields.conversion
  [field .l_type int16_t, field .l_whence int16_t, field .l_start int64_t, field .l_len int64_t, field .l_pid int32_t]

def guestSigAction : Layout FieldName :=
  [field .sigaction_handler pointer, field .sa_flags uint64_t, field .restorer pointer, field .sa_mask uint64_t]

def OldGuestSigAction_32.fields : Copies where
  guest := [field .sigaction_handler compat_ptr, field .sa_mask uint32_t, field .sa_flags uint32_t, field .restorer compat_ptr]
  passed := [.sigaction_handler, .sa_flags, .restorer, .sa_mask]
  returned := [.sigaction_handler, .restorer, .sa_flags, .sa_mask]

def OldGuestSigAction_32 : Conversion := OldGuestSigAction_32.fields.conversion guestSigAction

def GuestSigAction_32.fields : Copies where
  guest := [field .sigaction_handler compat_ptr, field .sa_flags uint32_t, field .restorer compat_ptr, field .sa_mask uint64_t]
  passed := [.sigaction_handler, .sa_flags, .restorer, .sa_mask]
  returned := [.sigaction_handler, .restorer, .sa_flags, .sa_mask]

def GuestSigAction_32 : Conversion := GuestSigAction_32.fields.conversion guestSigAction

def sigval32.fields : Copies where
  guest := [field .sival_ptr compat_ptr]
  passed := [.sival_ptr]
  returned := [.sival_ptr]

def sigval32 : Conversion := sigval32.fields.conversion [field .sival_ptr pointer]

def mq_attr32.fields : Copies where
  guest :=
    [field .mq_flags compat_long_t, field .mq_maxmsg compat_long_t, field .mq_msgsize compat_long_t,
     field .mq_curmsgs compat_long_t, padding .pad ⟨4 * 32, true⟩]
  passed := [.mq_flags, .mq_maxmsg, .mq_msgsize, .mq_curmsgs]
  returned := [.mq_flags, .mq_maxmsg, .mq_msgsize, .mq_curmsgs]

def mq_attr32 : Conversion := mq_attr32.fields.conversion
  [field .mq_flags int64_t, field .mq_maxmsg int64_t, field .mq_msgsize int64_t, field .mq_curmsgs int64_t]

def SIGEV_THREAD : BitVec 32 := 2
def SIGEV_THREAD_ID : BitVec 32 := 4

/-- The first two words of the union are `_function`, which has the place of `_tid`, and `_attribute`. -/
def sigevent32.guestLayout : Layout FieldName :=
  [field .sigev_value compat_ptr, field .sigev_signo int32_t, field .sigev_notify int32_t, field .function uint32_t,
   field .attribute uint32_t, padding .pad ⟨11 * 32, true⟩]

def sigevent32.hostLayout : Layout FieldName :=
  [field .sigev_value pointer, field .sigev_signo int32_t, field .sigev_notify int32_t, field .function pointer,
   field .attribute pointer]

/-- The words of the union that the kind of the notification uses. -/
def sigevent32.union (notify : BitVec 32) : List FieldName :=
  if notify = SIGEV_THREAD_ID then [.function]
  else if notify = SIGEV_THREAD then [.function, .attribute]
  else []

def sigevent32 : Conversion where
  guest := sigevent32.guestLayout
  host := sigevent32.hostLayout
  toHost _ g := Layout.copyInto ([.sigev_value, .sigev_signo, .sigev_notify] ++ sigevent32.union (g .sigev_notify)) g
    sigevent32.hostLayout.zero
  toGuest left h := Layout.copyInto ([.sigev_value, .sigev_signo, .sigev_notify] ++ sigevent32.union (h .sigev_notify)) h left

def rlimit32.guestLayout : Layout FieldName := [field .rlim_cur uint32_t, field .rlim_max uint32_t]

def rlimit32.hostLayout : Layout FieldName := [field .rlim_cur uint64_t, field .rlim_max uint64_t]

/-- No limit is all ones for the guest and for the host. -/
def rlimit32.toHost (g : rlimit32.guestLayout.Value) : rlimit32.hostLayout.Value := fun k =>
  let val := Layout.copyInto [.rlim_cur, .rlim_max] g rlimit32.hostLayout.zero k
  if val.toNat = 2 ^ 32 - 1 then -1 else val

def rlimit32.toGuest (Signed : Bool) (h : rlimit32.hostLayout.Value) : rlimit32.guestLayout.Value := fun k =>
  let Limit := if Signed then 0x7FFFFFFF else 0xFFFFFFFF
  if (h k).toNat > Limit then BitVec.ofNat _ Limit else (h k).setWidth _

/-- `rlimit32<false>` -/
def rlimit32 : Conversion where
  guest := rlimit32.guestLayout
  host := rlimit32.hostLayout
  toHost _ := rlimit32.toHost
  toGuest _ := rlimit32.toGuest false

def epoll_event32.guestLayout : Layout FieldName := [field .events uint32_t, field .data compat_uint64_t]

def epoll_event32.hostLayout : Layout FieldName := [field .events uint32_t, field .data uint64_t]

/-- The constructor sets the union through its first member, the pointer, and leaves the bytes behind it. -/
def epoll_event32 : Conversion where
  guest := epoll_event32.guestLayout
  host := epoll_event32.hostLayout
  toHost _ g := Layout.copyInto [.events, .data] g epoll_event32.hostLayout.zero
  toGuest left h := Function.update (Layout.copyInto [.events] h left) .data
    ((left .data).extractLsb' 32 32 ++ (h .data).setWidth 32)

/-! ## Interprocess communication -/

def ipc_perm_32.guestLayout : Layout FieldName :=
  [field .key uint32_t, field .uid uint16_t, field .gid uint16_t, field .cuid uint16_t, field .cgid uint16_t,
   field .mode uint16_t, field .seq uint16_t]

def ipc_perm_64.guestLayout : Layout FieldName :=
  [field .key uint32_t, field .uid uint32_t, field .gid uint32_t, field .cuid uint32_t, field .cgid uint32_t,
   field .mode uint16_t, padding ._pad1 uint16_t, field .seq uint16_t, padding ._pad2 uint16_t, padding ._pad ⟨2 * 32, false⟩]

def ipc64_perm : Layout FieldName :=
  [field .key int32_t, field .uid uint32_t, field .gid uint32_t, field .cuid uint32_t, field .cgid uint32_t,
   field .mode uint32_t, field .seq uint16_t]

/-- What both structures of permissions copy, in both directions. -/
def ipc_perm.fields : List FieldName := [.key, .uid, .gid, .cuid, .cgid, .mode, .seq]

def ipc_perm_32.fields : Copies where
  guest := ipc_perm_32.guestLayout
  passed := ipc_perm.fields
  returned := ipc_perm.fields
  cleared := false

def ipc_perm_32 : Conversion := ipc_perm_32.fields.conversion ipc64_perm

def ipc_perm_64.fields : Copies where
  guest := ipc_perm_64.guestLayout
  passed := ipc_perm.fields
  returned := ipc_perm.fields
  cleared := false

def ipc_perm_64 : Conversion := ipc_perm_64.fields.conversion ipc64_perm

def shmid64_ds : Layout FieldName := ipc64_perm ++
  [field .shm_segsz uint64_t, field .shm_atime int64_t, field .shm_dtime int64_t, field .shm_ctime int64_t,
   field .shm_cpid int32_t, field .shm_lpid int32_t, field .shm_nattch uint64_t]

def shmid_ds_32.fields : Copies where
  guest := ipc_perm_32.guestLayout ++
    [field .shm_segsz int32_t, field .shm_atime int32_t, field .shm_dtime int32_t, field .shm_ctime int32_t,
     field .shm_cpid uint16_t, field .shm_lpid uint16_t, field .shm_nattch uint16_t, padding .shm_unused uint16_t,
     padding .shm_unused2 uint32_t, padding .shm_unused3 uint32_t]
  passed := ipc_perm.fields ++ [.shm_segsz, .shm_atime, .shm_dtime, .shm_ctime, .shm_cpid, .shm_lpid, .shm_nattch]
  returned := ipc_perm.fields ++ [.shm_segsz, .shm_atime, .shm_dtime, .shm_ctime, .shm_cpid, .shm_lpid, .shm_nattch]
  cleared := false

def shmid_ds_32 : Conversion := shmid_ds_32.fields.conversion shmid64_ds

def shmid_ds_64.fields : Halves where
  guest := ipc_perm_64.guestLayout ++
    [field .shm_segsz compat_size_t, field .shm_atime compat_ulong_t, field .shm_atime_high compat_ulong_t,
     field .shm_dtime compat_ulong_t, field .shm_dtime_high compat_ulong_t, field .shm_ctime compat_ulong_t,
     field .shm_ctime_high compat_ulong_t, field .shm_cpid int32_t, field .shm_lpid int32_t, field .shm_nattch compat_ulong_t,
     padding .shm_unused4 compat_ulong_t, padding .shm_unused5 compat_ulong_t]
  copied := ipc_perm.fields ++ [.shm_segsz, .shm_cpid, .shm_lpid, .shm_nattch]
  halves := [(.shm_atime, .shm_atime_high), (.shm_dtime, .shm_dtime_high), (.shm_ctime, .shm_ctime_high)]
  cleared := false

def shmid_ds_64 : Conversion := shmid_ds_64.fields.conversion shmid64_ds

def semid64_ds : Layout FieldName := ipc64_perm ++
  [field .sem_otime int64_t, field .sem_ctime int64_t, field .sem_nsems uint64_t]

/-- The kernel leaves `sem_base` and the fields behind it out. -/
def semid_ds_32.fields : Copies where
  guest := ipc_perm_32.guestLayout ++
    [field .sem_otime int32_t, field .sem_ctime int32_t, padding .sem_base uint32_t, padding .sem_pending uint32_t,
     padding .sem_pending_last uint32_t, padding .undo uint32_t, field .sem_nsems uint16_t, padding ._pad uint16_t]
  passed := ipc_perm.fields ++ [.sem_otime, .sem_ctime, .sem_nsems]
  returned := ipc_perm.fields ++ [.sem_otime, .sem_ctime, .sem_nsems]

def semid_ds_32 : Conversion := semid_ds_32.fields.conversion semid64_ds

def semid_ds_64.fields : Halves where
  guest := ipc_perm_64.guestLayout ++
    [field .sem_otime uint32_t, field .sem_otime_high uint32_t, field .sem_ctime uint32_t, field .sem_ctime_high uint32_t,
     field .sem_nsems uint32_t, padding .pad ⟨2 * 32, false⟩]
  copied := ipc_perm.fields ++ [.sem_nsems]
  halves := [(.sem_otime, .sem_otime_high), (.sem_ctime, .sem_ctime_high)]

def semid_ds_64 : Conversion := semid_ds_64.fields.conversion semid64_ds

def msqid64_ds : Layout FieldName := ipc64_perm ++
  [field .msg_stime int64_t, field .msg_rtime int64_t, field .msg_ctime int64_t, field .msg_cbytes uint64_t,
   field .msg_qnum uint64_t, field .msg_qbytes uint64_t, field .msg_lspid int32_t, field .msg_lrpid int32_t]

/-- `msg_first` and `msg_last` are unused. -/
def msqid_ds_32.guestLayout : Layout FieldName := ipc_perm_32.guestLayout ++
  [padding .msg_first compat_uptr_t, padding .msg_last compat_uptr_t, field .msg_stime uint32_t, field .msg_rtime uint32_t,
   field .msg_ctime uint32_t, field .msg_lcbytes uint32_t, field .msg_lqbytes uint32_t, field .msg_cbytes uint16_t,
   field .msg_qnum uint16_t, field .msg_qbytes uint16_t, field .msg_lspid uint16_t, field .msg_lrpid uint16_t,
   padding .pad uint16_t]

/-- The constructor bounds `msg_cbytes` twice and never sets `msg_qbytes`. -/
def msqid_ds_32 : Conversion where
  guest := msqid_ds_32.guestLayout
  host := msqid64_ds
  toHost _ g := Layout.copyInto
    (ipc_perm.fields ++ [.msg_stime, .msg_rtime, .msg_ctime, .msg_cbytes, .msg_qnum, .msg_qbytes, .msg_lspid, .msg_lrpid])
    g msqid64_ds.zero
  toGuest left h := fun k =>
    match k with
    | .msg_cbytes => saturate 16 (h .msg_cbytes)
    | .msg_lcbytes => (h .msg_cbytes).setWidth 32
    | .msg_qnum => saturate 16 (h .msg_qnum)
    | .msg_lqbytes => (h .msg_qbytes).setWidth 32
    | k => Layout.copyInto (ipc_perm.fields ++ [.msg_stime, .msg_rtime, .msg_ctime, .msg_lspid, .msg_lrpid]) h left k

def msqid_ds_64.fields : Halves where
  guest := ipc_perm_64.guestLayout ++
    [field .msg_stime uint32_t, field .msg_stime_high uint32_t, field .msg_rtime uint32_t, field .msg_rtime_high uint32_t,
     field .msg_ctime uint32_t, field .msg_ctime_high uint32_t, field .msg_cbytes uint32_t, field .msg_qnum uint32_t,
     field .msg_qbytes uint32_t, field .msg_lspid uint32_t, field .msg_lrpid uint32_t, padding .pad ⟨2 * 32, false⟩]
  copied := ipc_perm.fields ++ [.msg_cbytes, .msg_qnum, .msg_qbytes, .msg_lspid, .msg_lrpid]
  halves := [(.msg_stime, .msg_stime_high), (.msg_rtime, .msg_rtime_high), (.msg_ctime, .msg_ctime_high)]

def msqid_ds_64 : Conversion := msqid_ds_64.fields.conversion msqid64_ds

def shminfo : Layout FieldName :=
  [field .shmmax uint64_t, field .shmmin uint64_t, field .shmmni uint64_t, field .shmseg uint64_t, field .shmall uint64_t]

def shminfo_32.fields : Copies where
  guest :=
    [field .shmmax uint32_t, field .shmmin uint32_t, field .shmmni uint32_t, field .shmseg uint32_t, field .shmall uint32_t]
  passed := [.shmmax, .shmmin, .shmmni, .shmseg, .shmall]
  returned := [.shmmax, .shmmin, .shmmni, .shmseg, .shmall]
  cleared := false

def shminfo_32 : Conversion := shminfo_32.fields.conversion shminfo

def shminfo_64.fields : Copies where
  guest :=
    [field .shmmax compat_ulong_t, field .shmmin compat_ulong_t, field .shmmni compat_ulong_t, field .shmseg compat_ulong_t,
     field .shmall compat_ulong_t, padding .pad ⟨4 * 32, false⟩]
  passed := [.shmmax, .shmmin, .shmmni, .shmseg, .shmall]
  returned := [.shmmax, .shmmin, .shmmni, .shmseg, .shmall]
  cleared := false

def shminfo_64 : Conversion := shminfo_64.fields.conversion shminfo

/-- The host's structure is only converted to the guest's. -/
def shm_info_32.fields : Copies where
  guest :=
    [field .used_ids int32_t, field .shm_tot uint32_t, field .shm_rss uint32_t, field .shm_swp uint32_t,
     field .swap_attempts uint32_t, field .swap_successes uint32_t]
  passed := []
  returned := [.used_ids, .shm_tot, .shm_rss, .shm_swp, .swap_attempts, .swap_successes]

def shm_info_32 : Conversion := shm_info_32.fields.conversion
  [field .used_ids int32_t, field .shm_tot uint64_t, field .shm_rss uint64_t, field .shm_swp uint64_t,
   field .swap_attempts uint64_t, field .swap_successes uint64_t]

end FexEmu.X32
