import FexEmu.X32.DrmTypes
/-!
# Submission of compute shaders

The structure of this ioctl grew over time. The helpers convert as many bytes of it as the number of the ioctl says.
-/
namespace FexEmu.X32.V3D

open Records FlatMemory

def submitCsdSize : Nat := Layout.size fex_drm_v3d_submit_csd.guest

example : submitCsdSize = 84 := rfl

def memcpy (dst src : List Byte) (n : Nat) : Option (List Byte) :=
  if n ≤ dst.length ∧ n ≤ src.length then some (src.take n ++ dst.drop n) else none

def decode (L : Layout FieldName) (l : List Byte) : L.Value := L.readFrom (fun a => l.getD a 0) 0

/-- The bytes `Src` are those of the guest's memory that the helper may read. -/
def SafeConvertToHost (host : Layout FieldName) (Src : List Byte) (IoctlSize : Nat) : Option host.Value := do
  let Tmp ← memcpy (Layout.bytesOf fex_drm_v3d_submit_csd.guest.zero) Src (min IoctlSize submitCsdSize)
  some (fex_drm_v3d_submit_csd.toHost host.zero (decode _ Tmp))

/-- `Result` is the guest's memory that the helper may write. The first argument is what the stack held. -/
def SafeConvertToGuest {host : Layout FieldName} (left : fex_drm_v3d_submit_csd.guest.Value) (Result : List Byte)
    (Src : host.Value) (IoctlSize : Nat) : Option (List Byte) :=
  let Tmp := fex_drm_v3d_submit_csd.toGuest left Src
  memcpy Result (Layout.bytesOf Tmp) IoctlSize

variable {host : Layout FieldName} {Src Result : List Byte} {IoctlSize : Nat}

theorem memcpy_isSome {dst src : List Byte} {n : Nat} : (memcpy dst src n).isSome ↔ n ≤ dst.length ∧ n ≤ src.length := by
  unfold memcpy
  split
  · rename_i within
    exact iff_of_true rfl within
  · rename_i outside
    exact iff_of_false (by simp) outside

theorem SafeConvertToHost_isSome (h : Src.length = IoctlSize) : (SafeConvertToHost host Src IoctlSize).isSome := by
  have copied : (memcpy (Layout.bytesOf fex_drm_v3d_submit_csd.guest.zero) Src (min IoctlSize submitCsdSize)).isSome := by
    rw [memcpy_isSome, Layout.bytesOf_length, h]
    exact ⟨Nat.min_le_right _ _, Nat.min_le_left _ _⟩
  obtain ⟨Tmp, made⟩ := Option.isSome_iff_exists.1 copied
  rw [SafeConvertToHost, made]
  rfl

/-- The way back reads as many bytes of the structure as the ioctl says, also if it is shorter. -/
theorem SafeConvertToGuest_isSome (left : fex_drm_v3d_submit_csd.guest.Value) (h : Result.length = IoctlSize)
    (Src : host.Value) : (SafeConvertToGuest left Result Src IoctlSize).isSome ↔ IoctlSize ≤ submitCsdSize := by
  rw [SafeConvertToGuest, memcpy_isSome, h, Layout.bytesOf_length]
  exact ⟨fun both => both.2, fun within => ⟨Nat.le_refl _, within⟩⟩

end FexEmu.X32.V3D
