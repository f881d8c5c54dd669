import FexEmu.X32.Conversion
/-!
# Structures of the graphics drivers

The conversions of the structures of ioctls. The structures of the host are those of the kernel's headers.
-/
namespace FexEmu.X32

open Records

abbrev enum : CInt := uint32_t

/-! ## DRM -/

namespace DRM

def fex_drm_version : Copies where
  guest :=
    [field .version_major int32_t, field .version_minor int32_t, field .version_patchlevel int32_t, field .name_len uint32_t,
     field .name compat_ptr, field .date_len uint32_t, field .date compat_ptr, field .desc_len uint32_t, field .desc compat_ptr]
  passed := [.version_major, .version_minor, .version_patchlevel, .name_len, .name, .date_len, .date, .desc_len, .desc]
  returned := [.version_major, .version_minor, .version_patchlevel, .name_len, .name, .date_len, .date, .desc_len, .desc]

def fex_drm_unique : Copies where
  guest := [field .unique_len compat_size_t, field .unique compat_ptr]
  passed := [.unique_len, .unique]
  returned := [.unique, .unique_len]

/-- The constructor copies all but the handle in the wrong direction, into its argument. -/
def fex_drm_map : Copies where
  guest :=
    [field .offset uint32_t, field .size uint32_t, field .type enum, field .flags enum, field .handle compat_ptr,
     field .mtrr int32_t]
  passed := [.offset, .size, .type, .flags, .handle, .mtrr]
  returned := [.handle]

def fex_drm_client : Copies where
  guest :=
    [field .idx int32_t, field .auth int32_t, field .pid uint32_t, field .uid uint32_t, field .magic uint32_t,
     field .iocs uint32_t]
  passed := [.idx, .auth, .pid, .uid, .magic, .iocs]
  returned := [.idx, .auth, .pid, .uid, .magic, .iocs]

def fex_drm_stats : Copies where
  guest := field .count uint32_t :: (List.range 15).flatMap fun i => [field (.data_value i) uint32_t, field (.data_type i) enum]
  passed := .count :: (List.range 15).flatMap fun i => [.data_value i, .data_type i]
  returned := .count :: (List.range 15).flatMap fun i => [.data_value i, .data_type i]

/-- Neither direction copies the flags. -/
def fex_drm_buf_desc : Copies where
  guest :=
    [field .count int32_t, field .size int32_t, field .low_mark int32_t, field .high_mark int32_t, field .flags enum,
     field .agp_start uint32_t]
  passed := [.count, .size, .low_mark, .high_mark, .agp_start]
  returned := [.count, .size, .low_mark, .high_mark, .agp_start]

def fex_drm_buf_info : Copies where
  guest := [field .count int32_t, field .list compat_ptr]
  passed := [.count, .list]
  returned := [.list, .count]

def fex_drm_buf_pub : Copies where
  guest := [field .idx int32_t, field .total int32_t, field .used int32_t, field .address compat_ptr]
  passed := [.idx, .total, .used, .address]
  returned := [.address, .idx, .total, .used]

def fex_drm_buf_map : Copies where
  guest := [field .count int32_t, field .virt compat_ptr, field .list compat_ptr]
  passed := [.count, .virt, .list]
  returned := [.virt, .list, .count]

def fex_drm_buf_free : Copies where
  guest := [field .count int32_t, field .list compat_ptr]
  passed := [.count, .list]
  returned := [.list, .count]

def fex_drm_ctx_priv_map : Copies where
  guest := [field .ctx_id uint32_t, field .handle compat_ptr]
  passed := [.ctx_id, .handle]
  returned := [.handle, .ctx_id]

/-- The operator leaves the pointer out. -/
def fex_drm_ctx_res : Copies where
  guest := [field .count int32_t, field .contexts compat_ptr]
  passed := [.count]
  returned := [.contexts, .count]

def fex_drm_dma : Copies where
  guest :=
    [field .context int32_t, field .send_count int32_t, field .send_indices compat_ptr, field .send_sizes compat_ptr,
     field .flags enum, field .request_count int32_t, field .request_size int32_t, field .request_indices compat_ptr,
     field .request_sizes compat_ptr, field .granted_count int32_t]
  passed :=
    [.context, .send_count, .send_indices, .send_sizes, .flags, .request_count, .request_size, .request_indices,
     .request_sizes, .granted_count]
  returned :=
    [.send_indices, .send_sizes, .request_indices, .request_sizes, .context, .send_count, .flags, .request_count,
     .request_size, .granted_count]

def fex_drm_scatter_gather : Copies where
  guest := [field .size uint32_t, field .handle uint32_t]
  passed := [.size, .handle]
  returned := [.size, .handle]

def fex_drm_wait_vblank_request : Copies where
  guest := [field .type enum, field .sequence uint32_t, field .signal uint32_t]
  passed := [.type, .sequence, .signal]
  returned := [.type, .sequence, .signal]

def fex_drm_wait_vblank_reply : Copies where
  guest := [field .type enum, field .sequence uint32_t, field .tval_sec int32_t, field .tval_usec int32_t]
  passed := [.type, .sequence, .tval_sec, .tval_usec]
  returned := [.type, .sequence, .tval_sec, .tval_usec]

def fex_drm_update_draw : Copies where
  guest := [field .handle uint32_t, field .type uint32_t, field .num uint32_t, field .data compat_uint64_t]
  passed := [.handle, .type, .num, .data]
  returned := [.handle, .type, .num, .data]

def fex_drm_mode_get_plane_res : Copies where
  guest := [field .plane_id_ptr compat_uint64_t, field .count_planes uint32_t]
  passed := [.plane_id_ptr, .count_planes]
  returned := [.plane_id_ptr, .count_planes]

def fex_drm_mode_fb_cmd2 : Copies where
  guest :=
    [field .fb_id uint32_t, field .width uint32_t, field .height uint32_t, field .pixel_format uint32_t, field .flags uint32_t] ++
    (List.range 4).map (fun i => field (.handles i) uint32_t) ++ (List.range 4).map (fun i => field (.pitches i) uint32_t) ++
    (List.range 4).map (fun i => field (.offsets i) uint32_t) ++ (List.range 4).map (fun i => field (.modifier i) compat_uint64_t)
  passed := [.fb_id, .width, .height, .pixel_format, .flags] ++
    (List.range 4).flatMap fun i => [.handles i, .pitches i, .offsets i, .modifier i]
  returned := [.fb_id, .width, .height, .pixel_format, .flags] ++
    (List.range 4).flatMap fun i => [.handles i, .pitches i, .offsets i, .modifier i]

/-- The constructor leaves the object's id out. -/
def fex_drm_mode_obj_get_properties : Copies where
  guest :=
    [field .props_ptr compat_uint64_t, field .prop_values_ptr compat_uint64_t, field .count_props uint32_t,
     field .obj_id uint32_t, field .obj_type uint32_t]
  passed := [.props_ptr, .prop_values_ptr, .count_props, .obj_id, .obj_type]
  returned := [.props_ptr, .prop_values_ptr, .count_props, .obj_type]

def fex_drm_mode_obj_set_property : Copies where
  guest := [field .value compat_uint64_t, field .prop_id uint32_t, field .obj_id uint32_t, field .obj_type uint32_t]
  passed := [.value, .prop_id, .obj_id, .obj_type]
  returned := [.value, .prop_id, .obj_id, .obj_type]

end DRM

/-! ## Drivers -/

def AMDGPU.fex_drm_amdgpu_gem_metadata : Copies where
  guest :=
    [field .handle uint32_t, field .op uint32_t, field .data_flags compat_uint64_t, field .data_tiling_info compat_uint64_t,
     field .data_data_size_bytes uint32_t, field .data_data ⟨64 * 32, false⟩]
  passed := [.handle, .op, .data_flags, .data_tiling_info, .data_data_size_bytes, .data_data]
  returned := [.handle, .op, .data_flags, .data_tiling_info, .data_data_size_bytes, .data_data]

def MSM.fex_drm_msm_timespec : Copies where
  guest := [field .tv_sec compat_int64_t, field .tv_nsec compat_int64_t]
  passed := [.tv_sec, .tv_nsec]
  returned := [.tv_sec, .tv_nsec]

def MSM.fex_drm_msm_wait_fence : Copies where
  guest :=
    [field .fence uint32_t, field .pad uint32_t, field .tv_sec compat_int64_t, field .tv_nsec compat_int64_t,
     field .queueid uint32_t]
  passed := [.fence, .pad, .tv_sec, .tv_nsec, .queueid]
  returned := [.tv_sec, .tv_nsec, .fence, .pad, .queueid]

namespace I915

def fex_drm_i915_batchbuffer_t : Copies where
  guest :=
    [field .start int32_t, field .used int32_t, field .DR1 int32_t, field .DR4 int32_t, field .num_cliprects int32_t,
     field .cliprects compat_ptr]
  passed := [.start, .used, .DR1, .DR4, .num_cliprects, .cliprects]
  returned := [.cliprects, .start, .used, .DR1, .DR4, .num_cliprects]

def fex_drm_i915_irq_emit_t : Copies where
  guest := [field .irq_seq compat_ptr]
  passed := [.irq_seq]
  returned := [.irq_seq]

def fex_drm_i915_getparam_t : Copies where
  guest := [field .param int32_t, field .value compat_ptr]
  passed := [.param, .value]
  returned := [.value, .param]

/-- The constructor copies the integers in the wrong direction. -/
def fex_drm_i915_mem_alloc_t : Copies where
  guest := [field .region int32_t, field .alignment int32_t, field .size int32_t, field .region_offset compat_ptr]
  passed := [.region, .alignment, .size, .region_offset]
  returned := [.region_offset]

/-- The constructor copies the integers in the wrong direction. -/
def fex_drm_i915_cmdbuffer_t : Copies where
  guest :=
    [field .buf compat_ptr, field .sz int32_t, field .DR1 int32_t, field .DR4 int32_t, field .num_cliprects int32_t,
     field .cliprects compat_ptr]
  passed := [.buf, .sz, .DR1, .DR4, .num_cliprects, .cliprects]
  returned := [.buf, .cliprects]

end I915

def VC4.fex_drm_vc4_perfmon_get_values : Copies where
  guest := [field .id uint32_t, field .values_ptr compat_uint64_t]
  passed := [.id, .values_ptr]
  returned := [.id, .values_ptr]

def V3D.fex_drm_v3d_submit_csd : Copies where
  guest :=
    [field .cfg ⟨7 * 32, false⟩, field .coef ⟨4 * 32, false⟩, field .bo_handles compat_uint64_t, field .bo_handle_count uint32_t,
     field .in_sync uint32_t, field .out_sync uint32_t, field .perfmon_id uint32_t, field .extensions compat_uint64_t,
     field .flags uint32_t, field .pad uint32_t]
  passed := [.cfg, .coef, .bo_handles, .bo_handle_count, .in_sync, .out_sync, .perfmon_id, .extensions, .flags, .pad]
  returned := [.cfg, .coef, .bo_handles, .bo_handle_count, .in_sync, .out_sync, .perfmon_id, .extensions, .flags, .pad]

end FexEmu.X32
