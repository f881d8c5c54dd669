import FexEmu.Data.Records
/-!
# Conversions of structures

A structure of a 32-bit guest and the host's, most of them copied by field names. Some split 64-bit times into two words.
-/
namespace FexEmu.X32

open Records

/-! ## Types -/

def int16_t : CInt := ⟨16, true⟩
def uint16_t : CInt := ⟨16, false⟩
def int32_t : CInt := ⟨32, true⟩
def uint32_t : CInt := ⟨32, false⟩
def int64_t : CInt := ⟨64, true⟩
def uint64_t : CInt := ⟨64, false⟩

def pointer : CInt := uint64_t

def compat_ulong_t : CInt := uint32_t
def compat_long_t : CInt := int32_t
def compat_uptr_t : CInt := uint32_t
def compat_size_t : CInt := uint32_t
def compat_pid_t : CInt := int32_t
def compat_clock_t : CInt := int32_t
def compat_uint64_t : CInt := uint64_t
def compat_int64_t : CInt := int64_t
def compat_loff_t : CInt := int64_t
def compat_ptr : CInt := uint32_t
def old_time32_t : CInt := int32_t

/-- The names of the fields. A field of an inner structure or of an array's element has the names of both. -/
inductive FieldName where
  | tv_sec | tv_nsec | tv_usec | it_interval_tv_sec | it_interval_tv_usec | it_value_tv_sec | it_value_tv_usec
  | it_interval_tv_nsec | it_value_tv_nsec | tms_utime | tms_stime | tms_cutime | tms_cstime | actime | modtime
  | ru_utime_tv_sec | ru_utime_tv_usec | ru_stime_tv_sec | ru_stime_tv_usec | ru_maxrss | ru_ixrss | ru_idrss | ru_isrss
  | ru_minflt | ru_majflt | ru_nswap | ru_inblock | ru_oublock | ru_msgsnd | ru_msgrcv | ru_nsignals | ru_nvcsw
  | ru_nivcsw | modes | offset | freq | maxerror | esterror | status | constant | precision | tolerance | time_tv_sec
  | time_tv_usec | tick | ppsfreq | jitter | shift | stabil | jitcnt | calcnt | errcnt | stbcnt | tai | pad | l_type
  | l_whence | l_start | l_len | l_pid | sigaction_handler | sa_flags | restorer | sa_mask | sival_ptr | mq_flags
  | mq_maxmsg | mq_msgsize | mq_curmsgs | sigev_value | sigev_signo | sigev_notify | function | attribute | rlim_cur
  | rlim_max | events | data | key | uid | gid | cuid | cgid | mode | seq | _pad1 | _pad2 | _pad | shm_segsz | shm_atime
  | shm_dtime | shm_ctime | shm_cpid | shm_lpid | shm_nattch | shm_unused | shm_unused2 | shm_unused3 | shm_atime_high
  | shm_dtime_high | shm_ctime_high | shm_unused4 | shm_unused5 | sem_otime | sem_ctime | sem_nsems | sem_base
  | sem_pending | sem_pending_last | undo | sem_otime_high | sem_ctime_high | msg_stime | msg_rtime | msg_ctime
  | msg_cbytes | msg_qnum | msg_qbytes | msg_lspid | msg_lrpid | msg_first | msg_last | msg_lcbytes | msg_lqbytes
  | msg_stime_high | msg_rtime_high | msg_ctime_high | shmmax | shmmin | shmmni | shmseg | shmall | used_ids | shm_tot
  | shm_rss | shm_swp | swap_attempts | swap_successes | version_major | version_minor | version_patchlevel | name_len
  | name | date_len | date | desc_len | desc | unique_len | unique | size | type | flags | handle | mtrr | idx | auth
  | pid | magic | iocs | count | low_mark | high_mark | agp_start | list | total | used | address | virt | ctx_id
  | contexts | context | send_count | send_indices | send_sizes | request_count | request_size | request_indices
  | request_sizes | granted_count | sequence | signal | tval_sec | tval_usec | num | plane_id_ptr | count_planes | fb_id
  | width | height | pixel_format | props_ptr | prop_values_ptr | count_props | obj_id | obj_type | value | prop_id | op
  | data_flags | data_tiling_info | data_data_size_bytes | data_data | fence | queueid | start | DR1 | DR4
  | num_cliprects | cliprects | irq_seq | param | region | alignment | region_offset | buf | sz | id | values_ptr | cfg
  | coef | bo_handles | bo_handle_count | in_sync | out_sync | perfmon_id | extensions
  | data_value (i : Nat)
  | data_type (i : Nat)
  | handles (i : Nat)
  | pitches (i : Nat)
  | offsets (i : Nat)
  | modifier (i : Nat)
deriving DecidableEq

/-! ## Conversions -/

/-- A guest structure with its conversions. -/
structure Conversion where
  guest : Layout FieldName
  host : Layout FieldName
  /-- The operator of the guest's structure. The first argument is what the storage of the result held. -/
  toHost : host.Value → guest.Value → host.Value
  /-- The constructor of the guest's structure. The first argument is what the storage of the result held. -/
  toGuest : guest.Value → host.Value → guest.Value

/-- A conversion that copies fields of the same names. -/
structure Copies where
  guest : Layout FieldName
  /-- The fields that the operator copies. -/
  passed : List FieldName
  /-- The fields that the constructor copies. -/
  returned : List FieldName
  /-- The operator clears its result first. -/
  cleared : Bool := true

namespace Copies

variable (c : Copies) {host : Layout FieldName}

def toHost (left : host.Value) (g : c.guest.Value) : host.Value :=
  Layout.copyInto c.passed g (if c.cleared then host.zero else left)

def toGuest (left : c.guest.Value) (h : host.Value) : c.guest.Value := Layout.copyInto c.returned h left

def conversion (host : Layout FieldName) : Conversion where
  guest := c.guest
  host := host
  toHost := c.toHost
  toGuest := c.toGuest

end Copies

/-- A conversion that copies fields and the halves of the host's times. -/
structure Halves where
  guest : Layout FieldName
  copied : List FieldName
  /-- The fields of the lower halves, named as the host's fields, and of the upper halves. -/
  halves : List (FieldName × FieldName)
  cleared : Bool := true

namespace Halves

variable (c : Halves) {guest host : Layout FieldName}

def join (g : guest.Value) (low high : FieldName) : BitVec (host.type low).bits :=
  (guest.type high).convert (host.type low) (g high) <<< 32 ||| (guest.type low).convert (host.type low) (g low)

def upper (h : host.Value) (low high : FieldName) : BitVec (guest.type high).bits :=
  (host.type low).convert (guest.type high) ((h low).sshiftRight 32)

def toHost (left : host.Value) (g : c.guest.Value) : host.Value := fun k =>
  match c.halves.find? fun p => p.1 = k with
  | some p => join g k p.2
  | none => Layout.copyInto c.copied g (if c.cleared then host.zero else left) k

def toGuest (left : c.guest.Value) (h : host.Value) : c.guest.Value := fun k =>
  match c.halves.find? fun p => p.2 = k with
  | some p => upper h p.1 k
  | none => Layout.copyInto (c.copied ++ c.halves.map Prod.fst) h left k

def conversion (host : Layout FieldName) : Conversion where
  guest := c.guest
  host := host
  toHost := c.toHost
  toGuest := c.toGuest

end Halves

def saturate (w : Nat) {n : Nat} (v : BitVec n) : BitVec w := if v.toNat > 2 ^ w - 1 then -1 else v.setWidth w

end FexEmu.X32
