import FexEmu.X32.Lossless
import FexEmu.X32.SubmitCsd
import FexEmu.X32.Sysinfo
/-!
# All structures

Which structures lose fields on the way to the host and back, and which constructors do not set all fields.
-/
namespace FexEmu.X32

open Records

/-! ## Structures of the graphics drivers -/

/-- The structures of the ioctls. -/
inductive DrmStruct where
  | version | unique | map | client | stats | buf_desc | buf_info | buf_pub | buf_map | buf_free | ctx_priv_map | ctx_res
  | dma | scatter_gather | wait_vblank_request | wait_vblank_reply | update_draw | mode_get_plane_res | mode_fb_cmd2
  | mode_obj_get_properties | mode_obj_set_property | amdgpu_gem_metadata | msm_timespec | msm_wait_fence | i915_batchbuffer
  | i915_irq_emit | i915_getparam | i915_mem_alloc | i915_cmdbuffer | vc4_perfmon_get_values | v3d_submit_csd

namespace DrmStruct

def copies : DrmStruct → Copies
  | version => DRM.fex_drm_version
  | unique => DRM.fex_drm_unique
  | map => DRM.fex_drm_map
  | client => DRM.fex_drm_client
  | stats => DRM.fex_drm_stats
  | buf_desc => DRM.fex_drm_buf_desc
  | buf_info => DRM.fex_drm_buf_info
  | buf_pub => DRM.fex_drm_buf_pub
  | buf_map => DRM.fex_drm_buf_map
  | buf_free => DRM.fex_drm_buf_free
  | ctx_priv_map => DRM.fex_drm_ctx_priv_map
  | ctx_res => DRM.fex_drm_ctx_res
  | dma => DRM.fex_drm_dma
  | scatter_gather => DRM.fex_drm_scatter_gather
  | wait_vblank_request => DRM.fex_drm_wait_vblank_request
  | wait_vblank_reply => DRM.fex_drm_wait_vblank_reply
  | update_draw => DRM.fex_drm_update_draw
  | mode_get_plane_res => DRM.fex_drm_mode_get_plane_res
  | mode_fb_cmd2 => DRM.fex_drm_mode_fb_cmd2
  | mode_obj_get_properties => DRM.fex_drm_mode_obj_get_properties
  | mode_obj_set_property => DRM.fex_drm_mode_obj_set_property
  | amdgpu_gem_metadata => AMDGPU.fex_drm_amdgpu_gem_metadata
  | msm_timespec => MSM.fex_drm_msm_timespec
  | msm_wait_fence => MSM.fex_drm_msm_wait_fence
  | i915_batchbuffer => I915.fex_drm_i915_batchbuffer_t
  | i915_irq_emit => I915.fex_drm_i915_irq_emit_t
  | i915_getparam => I915.fex_drm_i915_getparam_t
  | i915_mem_alloc => I915.fex_drm_i915_mem_alloc_t
  | i915_cmdbuffer => I915.fex_drm_i915_cmdbuffer_t
  | vc4_perfmon_get_values => VC4.fex_drm_vc4_perfmon_get_values
  | v3d_submit_csd => V3D.fex_drm_v3d_submit_csd

/-- The fields that the operator leaves out, although the constructor sets them. -/
def unpassed : DrmStruct → List FieldName
  | ctx_res => [.contexts]
  | _ => []

def unreturned : DrmStruct → List FieldName
  | map => [.offset, .size, .type, .flags, .mtrr]
  | buf_desc => [.flags]
  | mode_obj_get_properties => [.obj_id]
  | i915_mem_alloc => [.region, .alignment, .size]
  | i915_cmdbuffer => [.sz, .DR1, .DR4, .num_cliprects]
  | _ => []

theorem drops (d : DrmStruct) : d.copies.Drops d.unpassed d.unreturned := by
  cases d <;> decide +kernel

end DrmStruct

/-- The structures of the kernel's headers: their fields are not smaller than the guest's. -/
structure Headers where
  layout : DrmStruct → Layout FieldName
  fits : ∀ d, (DrmStruct.copies d).Fits (layout d)

/-- The fields of Linux's structures that are long or pointers. -/
def DrmStruct.long : DrmStruct → List FieldName
  | version => [.name_len, .name, .date_len, .date, .desc_len, .desc]
  | unique => [.unique_len, .unique]
  | map => [.offset, .size, .handle]
  | client => [.pid, .uid, .magic, .iocs]
  | stats => .count :: (List.range 15).map .data_value
  | buf_desc => [.agp_start]
  | buf_info | buf_free => [.list]
  | buf_pub => [.address]
  | buf_map => [.virt, .list]
  | ctx_priv_map => [.handle]
  | ctx_res => [.contexts]
  | dma => [.send_indices, .send_sizes, .request_indices, .request_sizes]
  | scatter_gather => [.size, .handle]
  | wait_vblank_request => [.signal]
  | wait_vblank_reply => [.tval_sec, .tval_usec]
  | i915_batchbuffer => [.cliprects]
  | i915_irq_emit => [.irq_seq]
  | i915_getparam => [.value]
  | i915_mem_alloc => [.region_offset]
  | i915_cmdbuffer => [.buf, .cliprects]
  | _ => []

def Headers.linux : Headers where
  layout d := d.copies.guest.map fun f => if f.key ∈ d.long then field f.key ⟨64, f.type.signed⟩ else f
  fits d := by cases d <;> decide +kernel

/-! ## All structures -/

/-- The structures that a system call of the guest passes. -/
inductive GuestStruct where
  | flock_32 | flock64_32 | rusage_32 | OldGuestSigAction_32 | GuestSigAction_32 | compat_tms | old_utimbuf32
  | old_itimerspec32 | rlimit32 | timex32 | sigval32 | sigevent32 | mq_attr32 | epoll_event32 | ipc_perm_32 | ipc_perm_64
  | shmid_ds_32 | shmid_ds_64 | semid_ds_32 | semid_ds_64 | msqid_ds_32 | msqid_ds_64 | shminfo_32 | shminfo_64
  | drm (d : DrmStruct)

/-- The numbers of a queue are bounded, two of them stand in a longer field as well. -/
def msqid_ds_32.expected (h : msqid64_ds.Value) (k : FieldName) : BitVec (msqid_ds_32.guest.type k).bits :=
  match k with
  | .msg_lcbytes => (h .msg_cbytes).setWidth _
  | .msg_lqbytes => (h .msg_qbytes).setWidth _
  | .msg_cbytes => saturate _ (h .msg_cbytes)
  | .msg_qnum => saturate _ (h .msg_qnum)
  | .msg_qbytes => saturate _ (h .msg_qbytes)
  | k => (h k).setWidth _

namespace GuestStruct

def conversion (H : Headers) : GuestStruct → Conversion
  | flock_32 => X32.flock_32
  | flock64_32 => X32.flock64_32
  | rusage_32 => X32.rusage_32
  | OldGuestSigAction_32 => X32.OldGuestSigAction_32
  | GuestSigAction_32 => X32.GuestSigAction_32
  | compat_tms => X32.compat_tms
  | old_utimbuf32 => X32.old_utimbuf32
  | old_itimerspec32 => X32.old_itimerspec32
  | rlimit32 => X32.rlimit32
  | timex32 => X32.timex32
  | sigval32 => X32.sigval32
  | sigevent32 => X32.sigevent32
  | mq_attr32 => X32.mq_attr32
  | epoll_event32 => X32.epoll_event32
  | ipc_perm_32 => X32.ipc_perm_32
  | ipc_perm_64 => X32.ipc_perm_64
  | shmid_ds_32 => X32.shmid_ds_32
  | shmid_ds_64 => X32.shmid_ds_64
  | semid_ds_32 => X32.semid_ds_32
  | semid_ds_64 => X32.semid_ds_64
  | msqid_ds_32 => X32.msqid_ds_32
  | msqid_ds_64 => X32.msqid_ds_64
  | shminfo_32 => X32.shminfo_32
  | shminfo_64 => X32.shminfo_64
  | drm d => d.copies.conversion (H.layout d)

variable {H : Headers}

/-- A field says something: the union of an event only as far as the kind of the notification uses it. -/
def Live : (s : GuestStruct) → (s.conversion H).guest.Value → FieldName → Prop
  | sigevent32, g, k => k ∈ [.function, .attribute] → k ∈ sigevent32.union (g .sigev_notify)
  | _, _, _ => True

/-- The way to the host and back gives the value again. -/
def RoundTrips (s : GuestStruct) (left : (s.conversion H).guest.Value) (left' : (s.conversion H).host.Value)
    (g : (s.conversion H).guest.Value) : Prop :=
  ∀ f ∈ (s.conversion H).guest, f.padding = false → s.Live g f.key →
    (s.conversion H).toGuest left ((s.conversion H).toHost left' g) f.key = g f.key

/-- What a field of the guest's structure has to say. -/
def expected : (s : GuestStruct) → (s.conversion H).host.Value → (k : FieldName) → BitVec ((s.conversion H).guest.type k).bits
  | rlimit32, h, k => saturate _ (h k)
  | shmid_ds_64, h, k => X32.shmid_ds_64.fields.expected h k
  | semid_ds_64, h, k => X32.semid_ds_64.fields.expected h k
  | msqid_ds_64, h, k => X32.msqid_ds_64.fields.expected h k
  | msqid_ds_32, h, k => msqid_ds_32.expected h k
  | _, h, k => (h k).setWidth _

/-- The constructor sets all fields from the host's. -/
def Produced (s : GuestStruct) (left : (s.conversion H).guest.Value) (h : (s.conversion H).host.Value) : Prop :=
  ∀ f ∈ (s.conversion H).guest, f.padding = false → s.Live ((s.conversion H).toGuest left h) f.key →
    (s.conversion H).toGuest left h f.key = s.expected h f.key

/-- The fields that the conversions leave out hold what the storage of the result held or nothing. -/
def Kept : (s : GuestStruct) → (left g : (s.conversion H).guest.Value) → Prop
  | drm d, left, g => (∀ k ∈ d.unreturned, left k = g k) ∧ ∀ k ∈ d.unpassed, g k = 0
  | epoll_event32, left, g => (left .data).extractLsb' 32 32 = (g .data).extractLsb' 32 32
  | msqid_ds_32, left, g =>
    left .msg_qbytes = g .msg_qbytes ∧ g .msg_lcbytes = (g .msg_cbytes).setWidth _ ∧
      g .msg_lqbytes = (g .msg_qbytes).setWidth _
  | _, _, _ => True

/-- The fields that a constructor leaves out have the right value before. -/
def Found : (s : GuestStruct) → (s.conversion H).guest.Value → (s.conversion H).host.Value → Prop
  | drm d, left, h => ∀ k ∈ d.unreturned, left k = (h k).setWidth _
  | epoll_event32, left, h => (left .data).extractLsb' 32 32 = (h .data).extractLsb' 32 32
  | msqid_ds_32, left, h => left .msg_qbytes = saturate _ (h .msg_qbytes)
  | _, _, _ => True

/-- Every value passes through the structure and back, and every host value has its guest image. -/
def Whole (H : Headers) (s : GuestStruct) : Prop :=
  (∀ left left' g, s.RoundTrips (H := H) left left' g) ∧ ∀ left h, s.Produced (H := H) left h

theorem whole_copies (c : Copies) (host : Layout FieldName) (drops : c.Drops [] []) (fits : c.Fits host) :
    (∀ left (left' : host.Value) g, ∀ f ∈ c.guest, f.padding = false → True →
      c.toGuest left (c.toHost left' g) f.key = g f.key) ∧
    ∀ left (h : host.Value), ∀ f ∈ c.guest, f.padding = false → True → c.toGuest left h f.key = (h f.key).setWidth _ := by
  constructor
  · intro left left' g f hf used _
    exact (Copies.roundTrips_iff drops fits left left' g).2 ⟨by simp, by simp⟩ f hf used
  · intro left h f hf used _
    exact (Copies.produced_iff drops fits left h).2 (by simp) f hf used

theorem whole_halves (c : Halves) (host : Layout FieldName) (complete : c.Complete host) :
    (∀ left (left' : host.Value) g, ∀ f ∈ c.guest, f.padding = false → True →
      c.toGuest left (c.toHost left' g) f.key = g f.key) ∧
    ∀ left (h : host.Value), ∀ f ∈ c.guest, f.padding = false → True → c.toGuest left h f.key = c.expected h f.key := by
  constructor
  · intro left left' g f hf used _
    exact Halves.toGuest_toHost complete left left' g hf used
  · intro left h f hf used _
    exact Halves.toGuest_apply complete left h hf used

/-! ### Limits -/

theorem limit_back (x : BitVec 32) :
    let val := x.setWidth 64
    let val := if val.toNat = 2 ^ 32 - 1 then -1 else val
    (if val.toNat > 0xFFFFFFFF then BitVec.ofNat 32 0xFFFFFFFF else val.setWidth 32) = x := by
  have bound := x.isLt
  intro val limit
  have small : val.toNat = x.toNat := by
    simp only [val, BitVec.toNat_setWidth]
    omega
  by_cases all : x.toNat = 2 ^ 32 - 1
  · have none : limit = -1 := if_pos (small.trans all)
    rw [none, if_pos (by decide)]
    apply BitVec.eq_of_toNat_eq
    rw [all]
    rfl
  · have some : limit = val := by
      apply if_neg
      rwa [small]
    rw [some, if_neg (by omega)]
    apply BitVec.eq_of_toNat_eq
    rw [BitVec.toNat_setWidth, small, Nat.mod_eq_of_lt bound]

theorem limit_saturates (v : BitVec 64) :
    (if v.toNat > 0xFFFFFFFF then BitVec.ofNat 32 0xFFFFFFFF else v.setWidth 32) = saturate 32 v := rfl

theorem rlimit32_whole : Whole H rlimit32 := by
  constructor
  · intro left left' g f hf
    rcases List.mem_cons.1 hf with rfl | hf
    · exact fun _ _ => limit_back (g .rlim_cur)
    · rcases List.mem_singleton.1 hf with rfl
      exact fun _ _ => limit_back (g .rlim_max)
  · intro left h f hf
    rcases List.mem_cons.1 hf with rfl | hf
    · exact fun _ _ => limit_saturates (h .rlim_cur)
    · rcases List.mem_singleton.1 hf with rfl
      exact fun _ _ => limit_saturates (h .rlim_max)

/-! ### Events of signals -/

namespace sigevent32

theorem mem_of_live {f : Member FieldName} (hf : f ∈ X32.sigevent32.guest) (used : f.padding = false) {notify : BitVec 32}
    (live : f.key ∈ [.function, .attribute] → f.key ∈ sigevent32.union notify) :
    f.key ∈ [.sigev_value, .sigev_signo, .sigev_notify] ++ sigevent32.union notify := by
  rw [List.mem_append]
  by_cases union : f.key ∈ [.function, .attribute]
  · exact .inr (live union)
  · left
    clear live
    revert f
    decide

theorem fits : ∀ f ∈ X32.sigevent32.guest, f.padding = false →
    (X32.sigevent32.guest.type f.key).bits ≤ (X32.sigevent32.host.type f.key).bits := by
  decide

theorem toHost_notify (left : X32.sigevent32.host.Value) (g : X32.sigevent32.guest.Value) :
    (X32.sigevent32.toHost left g .sigev_notify : BitVec 32) = g .sigev_notify := by
  have passed : FieldName.sigev_notify ∈ [.sigev_value, .sigev_signo, .sigev_notify] ++ sigevent32.union (g .sigev_notify) := by
    simp
  have copied := Layout.copyInto_mem passed g X32.sigevent32.host.zero
  exact copied.trans (BitVec.signExtend_eq (g .sigev_notify : BitVec 32))

theorem toGuest_notify (left : X32.sigevent32.guest.Value) (h : X32.sigevent32.host.Value) :
    (X32.sigevent32.toGuest left h .sigev_notify : BitVec 32) = h .sigev_notify := by
  have returned : FieldName.sigev_notify ∈ [.sigev_value, .sigev_signo, .sigev_notify] ++ sigevent32.union (h .sigev_notify) := by
    simp
  have copied := Layout.copyInto_mem returned h left
  exact copied.trans (BitVec.signExtend_eq (h .sigev_notify : BitVec 32))

theorem whole : Whole H .sigevent32 := by
  constructor
  · intro left left' g f hf used live
    have passed := mem_of_live hf used live
    have returned := passed
    rw [← toHost_notify left' g] at returned
    have out : X32.sigevent32.toGuest left (X32.sigevent32.toHost left' g) f.key = _ := Layout.copyInto_mem returned _ _
    have there : X32.sigevent32.toHost left' g f.key = _ := Layout.copyInto_mem passed _ _
    refine out.trans ?_
    rw [there]
    exact CInt.convert_convert (fits f hf used) _
  · intro left h f hf used live
    have returned : f.key ∈ [.sigev_value, .sigev_signo, .sigev_notify] ++
        sigevent32.union (X32.sigevent32.toGuest left h .sigev_notify) := mem_of_live hf used live
    rw [toGuest_notify left h] at returned
    exact (Layout.copyInto_mem returned _ _).trans (CInt.convert_of_le (fits f hf used) _)

end sigevent32

/-! ### Events of epoll -/

theorem upper_append_iff (l v : BitVec 64) :
    l.extractLsb' 32 32 ++ v.setWidth 32 = v ↔ l.extractLsb' 32 32 = v.extractLsb' 32 32 := by
  have halves : v.extractLsb' 32 32 ++ v.setWidth 32 = v := by
    apply BitVec.eq_of_getLsbD_eq
    intro i hi
    rw [BitVec.getLsbD_append]
    by_cases lt : i < 32
    · simp [lt]
    · have upper : i - 32 < 32 := by omega
      simp [lt, upper, show 32 + (i - 32) = i by omega]
  constructor
  · intro same
    have upper := congrArg (BitVec.extractLsb' 32 32) same
    rwa [BitVec.extractLsb'_append_eq_ite, dif_neg (by omega), Nat.sub_self, BitVec.extractLsb'_eq_self] at upper
  · intro upper
    rw [upper, halves]

namespace epoll_event32

theorem toGuest_data_iff (left : X32.epoll_event32.guest.Value) (h : X32.epoll_event32.host.Value) {v : BitVec 64}
    (hv : h .data = v) : X32.epoll_event32.toGuest left h .data = v ↔
      (left .data : BitVec 64).extractLsb' 32 32 = v.extractLsb' 32 32 := by
  subst hv
  exact upper_append_iff (left .data) (h .data)

theorem toHost_data (left : X32.epoll_event32.host.Value) (g : X32.epoll_event32.guest.Value) :
    X32.epoll_event32.toHost left g .data = (g .data : BitVec 64) :=
  BitVec.setWidth_eq (g .data : BitVec 64)

theorem toHost_events (left : X32.epoll_event32.host.Value) (g : X32.epoll_event32.guest.Value) :
    X32.epoll_event32.toHost left g .events = (g .events : BitVec 32) :=
  BitVec.setWidth_eq (g .events : BitVec 32)

theorem forall_guest {P : Member FieldName → Prop} :
    (∀ f ∈ X32.epoll_event32.guest, P f) ↔ P (field .events uint32_t) ∧ P (field .data compat_uint64_t) := by
  change (∀ f ∈ [_, _], P f) ↔ _
  rw [List.forall_mem_cons, List.forall_mem_singleton]

theorem produced_iff (left : X32.epoll_event32.guest.Value) (h : X32.epoll_event32.host.Value) :
    Produced (H := H) epoll_event32 left h ↔ Found (H := H) epoll_event32 left h := by
  have data := toGuest_data_iff left h rfl
  refine forall_guest.trans ?_
  constructor
  · rintro ⟨_, back⟩
    exact data.1 ((back rfl trivial).trans (BitVec.setWidth_eq (h .data : BitVec 64)))
  · intro upper
    exact ⟨fun _ _ => rfl, fun _ _ => (data.2 upper).trans (BitVec.setWidth_eq (h .data : BitVec 64)).symm⟩

theorem roundTrips_iff (left : X32.epoll_event32.guest.Value) (left' : X32.epoll_event32.host.Value)
    (g : X32.epoll_event32.guest.Value) :
    RoundTrips (H := H) epoll_event32 left left' g ↔ Kept (H := H) epoll_event32 left g := by
  have data := toGuest_data_iff left (X32.epoll_event32.toHost left' g) (toHost_data left' g)
  have events : X32.epoll_event32.toGuest left (X32.epoll_event32.toHost left' g) .events = (g .events : BitVec 32) :=
    (BitVec.setWidth_eq _).trans (toHost_events left' g)
  refine forall_guest.trans ?_
  constructor
  · rintro ⟨_, back⟩
    exact data.1 (back rfl trivial)
  · intro upper
    exact ⟨fun _ _ => events, fun _ _ => data.2 upper⟩

end epoll_event32

/-! ### Message queues -/

namespace msqid_ds_32

def copied : List FieldName := ipc_perm.fields ++ [.msg_stime, .msg_rtime, .msg_ctime, .msg_lspid, .msg_lrpid]

theorem cases_key : ∀ f ∈ X32.msqid_ds_32.guest, f.padding = false →
    f.key ∈ copied ∨ f.key ∈ [.msg_cbytes, .msg_lcbytes, .msg_qnum, .msg_lqbytes, .msg_qbytes] := by
  decide

theorem fits : ∀ k ∈ copied, (X32.msqid_ds_32.guest.type k).bits ≤ (msqid64_ds.type k).bits := by
  decide

theorem toGuest_copied (left : X32.msqid_ds_32.guest.Value) (h : msqid64_ds.Value) :
    ∀ k ∈ copied, X32.msqid_ds_32.toGuest left h k = (msqid64_ds.type k).convert (X32.msqid_ds_32.guest.type k) (h k) := by
  simp only [copied, ipc_perm.fields, List.cons_append, List.nil_append, List.forall_mem_cons]
  exact ⟨rfl, rfl, rfl, rfl, rfl, rfl, rfl, rfl, rfl, rfl, rfl, rfl, by simp⟩

theorem expected_copied (h : msqid64_ds.Value) :
    ∀ k ∈ copied, msqid_ds_32.expected h k = (h k).setWidth _ := by
  simp only [copied, ipc_perm.fields, List.cons_append, List.nil_append, List.forall_mem_cons]
  exact ⟨rfl, rfl, rfl, rfl, rfl, rfl, rfl, rfl, rfl, rfl, rfl, rfl, by simp⟩

theorem saturate_back (x : BitVec 16) : saturate 16 (x.setWidth 64) = x := by
  have bound := x.isLt
  have small : (x.setWidth 64).toNat = x.toNat := by
    rw [BitVec.toNat_setWidth, Nat.mod_eq_of_lt (by omega)]
  rw [saturate, if_neg (by omega)]
  apply BitVec.eq_of_toNat_eq
  rw [BitVec.toNat_setWidth, small, Nat.mod_eq_of_lt bound]

theorem long_back (x : BitVec 16) : (x.setWidth 64).setWidth 32 = x.setWidth 32 :=
  BitVec.setWidth_setWidth_of_le x (by decide)

theorem mem_guest : ∀ k ∈ [FieldName.msg_qbytes, .msg_lcbytes, .msg_lqbytes],
    ∃ f ∈ X32.msqid_ds_32.guest, f.padding = false ∧ f.key = k := by
  decide

theorem toHost_copied {k : FieldName} (hk : k ∈ copied) (left : msqid64_ds.Value) (g : X32.msqid_ds_32.guest.Value) :
    X32.msqid_ds_32.toHost left g k = (X32.msqid_ds_32.guest.type k).convert (msqid64_ds.type k) (g k) := by
  apply Layout.copyInto_mem
  revert k
  decide

theorem roundTrips_iff (left : X32.msqid_ds_32.guest.Value) (left' : msqid64_ds.Value) (g : X32.msqid_ds_32.guest.Value) :
    RoundTrips (H := H) msqid_ds_32 left left' g ↔ Kept (H := H) msqid_ds_32 left g := by
  constructor
  · intro back
    have at_key : ∀ k ∈ [FieldName.msg_qbytes, .msg_lcbytes, .msg_lqbytes],
        X32.msqid_ds_32.toGuest left (X32.msqid_ds_32.toHost left' g) k = g k := by
      intro k hk
      obtain ⟨f, hf, used, rfl⟩ := mem_guest k hk
      exact back f hf used trivial
    have long_c := at_key .msg_lcbytes (by simp)
    have long_q := at_key .msg_lqbytes (by simp)
    exact ⟨at_key .msg_qbytes (by simp), long_c.symm.trans (long_back (g .msg_cbytes)),
      long_q.symm.trans (long_back (g .msg_qbytes))⟩
  · rintro ⟨short, long_c, long_q⟩ f hf used _
    rcases cases_key f hf used with hk | hk
    · have out := toGuest_copied left (X32.msqid_ds_32.toHost left' g) f.key hk
      rw [toHost_copied hk left' g] at out
      exact out.trans (CInt.convert_convert (fits f.key hk) _)
    · generalize f.key = k at hk
      simp only [List.mem_cons, List.not_mem_nil, or_false] at hk
      rcases hk with rfl | rfl | rfl | rfl | rfl
      · exact saturate_back (g .msg_cbytes)
      · exact (long_back (g .msg_cbytes)).trans long_c.symm
      · exact saturate_back (g .msg_qnum)
      · exact (long_back (g .msg_qbytes)).trans long_q.symm
      · exact short

theorem produced_iff (left : X32.msqid_ds_32.guest.Value) (h : msqid64_ds.Value) :
    Produced (H := H) msqid_ds_32 left h ↔ Found (H := H) msqid_ds_32 left h := by
  constructor
  · intro made
    obtain ⟨f, hf, used, hk⟩ := mem_guest .msg_qbytes (by simp)
    have here := made f hf used trivial
    rw [hk] at here
    exact here
  · intro short f hf used _
    rcases cases_key f hf used with hk | hk
    · refine (toGuest_copied left h f.key hk).trans ?_
      exact (CInt.convert_of_le (fits f.key hk) _).trans (expected_copied h f.key hk).symm
    · generalize f.key = k at hk
      simp only [List.mem_cons, List.not_mem_nil, or_false] at hk
      rcases hk with rfl | rfl | rfl | rfl | rfl
      · rfl
      · rfl
      · rfl
      · rfl
      · exact short

end msqid_ds_32

/-! ### All of them -/

def KeepsAll : GuestStruct → Prop
  | epoll_event32 | msqid_ds_32 | drm _ => False
  | _ => True

theorem whole (s : GuestStruct) (keeps : s.KeepsAll) : Whole H s := by
  cases s with
  | flock_32 => exact whole_copies X32.flock_32.fields X32.flock_32.host (by decide) (by decide)
  | flock64_32 => exact whole_copies X32.flock64_32.fields X32.flock64_32.host (by decide) (by decide)
  | rusage_32 => exact whole_copies X32.rusage_32.fields X32.rusage_32.host (by decide) (by decide)
  | OldGuestSigAction_32 => exact whole_copies X32.OldGuestSigAction_32.fields X32.OldGuestSigAction_32.host (by decide) (by decide)
  | GuestSigAction_32 => exact whole_copies X32.GuestSigAction_32.fields X32.GuestSigAction_32.host (by decide) (by decide)
  | compat_tms => exact whole_copies X32.compat_tms.fields X32.compat_tms.host (by decide) (by decide)
  | old_utimbuf32 => exact whole_copies X32.old_utimbuf32.fields X32.old_utimbuf32.host (by decide) (by decide)
  | old_itimerspec32 => exact whole_copies X32.old_itimerspec32.fields X32.old_itimerspec32.host (by decide) (by decide)
  | timex32 => exact whole_copies X32.timex32.fields X32.timex32.host (by decide) (by decide)
  | sigval32 => exact whole_copies X32.sigval32.fields X32.sigval32.host (by decide) (by decide)
  | mq_attr32 => exact whole_copies X32.mq_attr32.fields X32.mq_attr32.host (by decide) (by decide)
  | ipc_perm_32 => exact whole_copies X32.ipc_perm_32.fields X32.ipc_perm_32.host (by decide) (by decide)
  | ipc_perm_64 => exact whole_copies X32.ipc_perm_64.fields X32.ipc_perm_64.host (by decide) (by decide)
  | shmid_ds_32 => exact whole_copies X32.shmid_ds_32.fields X32.shmid_ds_32.host (by decide) (by decide)
  | semid_ds_32 => exact whole_copies X32.semid_ds_32.fields X32.semid_ds_32.host (by decide) (by decide)
  | shminfo_32 => exact whole_copies X32.shminfo_32.fields X32.shminfo_32.host (by decide) (by decide)
  | shminfo_64 => exact whole_copies X32.shminfo_64.fields X32.shminfo_64.host (by decide) (by decide)
  | shmid_ds_64 => exact whole_halves X32.shmid_ds_64.fields X32.shmid_ds_64.host (by decide)
  | semid_ds_64 => exact whole_halves X32.semid_ds_64.fields X32.semid_ds_64.host (by decide)
  | msqid_ds_64 => exact whole_halves X32.msqid_ds_64.fields X32.msqid_ds_64.host (by decide)
  | rlimit32 => exact rlimit32_whole
  | sigevent32 => exact sigevent32.whole
  | epoll_event32 | msqid_ds_32 | drm d => exact keeps.elim

/-- A structure comes back from the host if and only if the fields that are left out have the right values anyway. -/
theorem roundTrips_iff_kept (s : GuestStruct) (left : (s.conversion H).guest.Value) (left' : (s.conversion H).host.Value)
    (g : (s.conversion H).guest.Value) : s.RoundTrips left left' g ↔ s.Kept left g := by
  cases s with
  | epoll_event32 => exact epoll_event32.roundTrips_iff left left' g
  | msqid_ds_32 => exact msqid_ds_32.roundTrips_iff left left' g
  | drm d =>
    refine Iff.trans ?_ (Copies.roundTrips_iff d.drops (H.fits d) left left' g)
    exact ⟨fun h f hf used => h f hf used trivial, fun h f hf used _ => h f hf used⟩
  | _ =>
    refine iff_of_true ((whole _ ?_).1 left left' g) trivial
    exact trivial

/-- A constructor sets all fields if and only if those that it leaves out have the right values before. -/
theorem produced_iff_found (s : GuestStruct) (left : (s.conversion H).guest.Value) (h : (s.conversion H).host.Value) :
    s.Produced left h ↔ s.Found left h := by
  cases s with
  | epoll_event32 => exact epoll_event32.produced_iff left h
  | msqid_ds_32 => exact msqid_ds_32.produced_iff left h
  | drm d =>
    refine Iff.trans ?_ (Copies.produced_iff d.drops (H.fits d) left h)
    exact ⟨fun made f hf used => made f hf used trivial, fun made f hf used _ => made f hf used⟩
  | _ =>
    refine iff_of_true ((whole _ ?_).2 left h) trivial
    exact trivial

end GuestStruct

/-- The conversions keep the fields, and the constructors set them, if and only if those that are left out are right anyway.
`sysinfo` needs the free memory in it, and units that grow; the shader's helpers need an ioctl that is not longer than the
structure. -/
theorem conversions_lossless_iff (H : Headers) :
    (∀ (s : GuestStruct) (left : (s.conversion H).guest.Value) (left' : (s.conversion H).host.Value)
      (g : (s.conversion H).guest.Value), s.RoundTrips left left' g ↔ s.Kept left g) ∧
    (∀ (s : GuestStruct) (left : (s.conversion H).guest.Value) (h : (s.conversion H).host.Value),
      s.Produced left h ↔ s.Found left h) ∧
    (∀ (Host : sysinfo) (info : sysinfo32),
      sysinfo.Told Host info ↔ ∃ k, sysinfo.Units Host k ∧ info.freeram = (Host.freeram >>> k).setWidth 32) ∧
    (∀ (host : Layout FieldName) (Src : List FlatMemory.Byte),
      (V3D.SafeConvertToHost host Src Src.length).isSome) ∧
    ∀ (host : Layout FieldName) (left : V3D.fex_drm_v3d_submit_csd.guest.Value) (Result : List FlatMemory.Byte)
      (Src : host.Value), (V3D.SafeConvertToGuest left Result Src Result.length).isSome ↔ Result.length ≤ V3D.submitCsdSize :=
  ⟨fun s left left' g => s.roundTrips_iff_kept left left' g, fun s left h => s.produced_iff_found left h,
    sysinfo.told_iff, fun _ _ => V3D.SafeConvertToHost_isSome rfl,
    fun _ left _ Src => V3D.SafeConvertToGuest_isSome left rfl Src⟩

/-- A map whose offset is one: the constructor leaves the offset of zero that it finds. -/
theorem drm_map_loses_offset :
    ¬ GuestStruct.RoundTrips (H := Headers.linux) (.drm .map) (fun _ => 0) (fun _ => 0) (fun _ => 1) := by
  intro back
  have offset := back (field .offset uint32_t) (List.mem_cons_self) rfl trivial
  exact absurd offset (by decide)

end FexEmu.X32
