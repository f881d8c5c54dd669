import FexEmu.X32.DrmTypes
import FexEmu.X32.Types
/-!
# What the conversions keep

Which fields of a structure survive the way to the host and back, and which fields of a guest's structure the host's
structure decides.
-/
namespace FexEmu.X32

open Records

/-! ## Copies -/

namespace Copies

/-- The fields that the operator, and those that the constructor leaves out. -/
structure Drops (c : Copies) (unpassed unreturned : List FieldName) : Prop where
  unreturned_iff : ∀ f ∈ c.guest, f.padding = false → (f.key ∈ unreturned ↔ f.key ∉ c.returned)
  unpassed_iff : ∀ f ∈ c.guest, f.padding = false → (f.key ∈ unpassed ↔ f.key ∈ c.returned ∧ f.key ∉ c.passed)
  within : ∀ k ∈ unpassed ++ unreturned, ∃ f ∈ c.guest, f.padding = false ∧ f.key = k
  cleared : unpassed = [] ∨ c.cleared = true

instance (c : Copies) (unpassed unreturned : List FieldName) : Decidable (c.Drops unpassed unreturned) :=
  decidable_of_iff
    ((∀ f ∈ c.guest, f.padding = false → (f.key ∈ unreturned ↔ f.key ∉ c.returned)) ∧
      (∀ f ∈ c.guest, f.padding = false → (f.key ∈ unpassed ↔ f.key ∈ c.returned ∧ f.key ∉ c.passed)) ∧
      (∀ k ∈ unpassed ++ unreturned, ∃ f ∈ c.guest, f.padding = false ∧ f.key = k) ∧ (unpassed = [] ∨ c.cleared = true))
    ⟨fun h => ⟨h.1, h.2.1, h.2.2.1, h.2.2.2⟩, fun h => ⟨h.unreturned_iff, h.unpassed_iff, h.within, h.cleared⟩⟩

/-- Every field that is not padding has a wide enough field of the host. -/
def Fits (c : Copies) (host : Layout FieldName) : Prop :=
  ∀ f ∈ c.guest, f.padding = false → (c.guest.type f.key).bits ≤ (host.type f.key).bits

instance (c : Copies) (host : Layout FieldName) : Decidable (c.Fits host) := inferInstanceAs (Decidable (∀ f ∈ _, _ → _))

variable {c : Copies} {host : Layout FieldName} {unpassed unreturned : List FieldName}

theorem convert_zero (s d : CInt) : s.convert d 0 = 0 := by
  unfold CInt.convert
  split <;> simp [BitVec.signExtend]

theorem toGuest_toHost (drops : c.Drops unpassed unreturned) (fits : c.Fits host) (left : c.guest.Value) (left' : host.Value)
    (g : c.guest.Value) {f : Member FieldName} (hf : f ∈ c.guest) (used : f.padding = false) :
    c.toGuest left (c.toHost left' g) f.key =
      if f.key ∈ unreturned then left f.key else if f.key ∈ unpassed then 0 else g f.key := by
  by_cases hr : f.key ∈ c.returned
  · have returned : f.key ∉ unreturned := fun h => (drops.unreturned_iff f hf used).1 h hr
    rw [if_neg returned]
    have out : c.toGuest left (c.toHost left' g) f.key =
        (host.type f.key).convert (c.guest.type f.key) (c.toHost left' g f.key) :=
      Layout.copyInto_mem hr _ _
    rw [out]
    by_cases hp : f.key ∈ c.passed
    · have passed : f.key ∉ unpassed := fun h => ((drops.unpassed_iff f hf used).1 h).2 hp
      have there : c.toHost left' g f.key = (c.guest.type f.key).convert (host.type f.key) (g f.key) :=
        Layout.copyInto_mem hp _ _
      rw [there, if_neg passed]
      exact CInt.convert_convert (fits f hf used) _
    · have passed : f.key ∈ unpassed := (drops.unpassed_iff f hf used).2 ⟨hr, hp⟩
      have cleared : c.cleared = true := by
        rcases drops.cleared with none | cleared
        · rw [none] at passed
          cases passed
        · exact cleared
      have there : c.toHost left' g f.key = 0 := by
        apply (Layout.copyInto_not_mem hp _ _).trans
        rw [if_pos cleared]
        rfl
      rw [there, if_pos passed]
      exact convert_zero _ _
  · rw [if_pos ((drops.unreturned_iff f hf used).2 hr)]
    exact Layout.copyInto_not_mem hr _ _

theorem toGuest_apply (drops : c.Drops unpassed unreturned) (fits : c.Fits host) (left : c.guest.Value) (h : host.Value)
    {f : Member FieldName} (hf : f ∈ c.guest) (used : f.padding = false) :
    c.toGuest left h f.key = if f.key ∈ unreturned then left f.key else (h f.key).setWidth _ := by
  by_cases hr : f.key ∈ c.returned
  · rw [if_neg (fun h => (drops.unreturned_iff f hf used).1 h hr)]
    exact (Layout.copyInto_mem hr _ _).trans (CInt.convert_of_le (fits f hf used) _)
  · rw [if_pos ((drops.unreturned_iff f hf used).2 hr)]
    exact Layout.copyInto_not_mem hr _ _

theorem apart (drops : c.Drops unpassed unreturned) {k : FieldName} (hp : k ∈ unpassed) : k ∉ unreturned := by
  obtain ⟨f, hf, used, rfl⟩ := drops.within k (List.mem_append_left _ hp)
  intro hr
  exact (drops.unreturned_iff f hf used).1 hr ((drops.unpassed_iff f hf used).1 hp).1

theorem roundTrips_iff (drops : c.Drops unpassed unreturned) (fits : c.Fits host) (left : c.guest.Value) (left' : host.Value)
    (g : c.guest.Value) :
    (∀ f ∈ c.guest, f.padding = false → c.toGuest left (c.toHost left' g) f.key = g f.key) ↔
      (∀ k ∈ unreturned, left k = g k) ∧ ∀ k ∈ unpassed, g k = 0 := by
  constructor
  · intro same
    constructor
    · intro k hk
      obtain ⟨f, hf, used, rfl⟩ := drops.within k (List.mem_append_right _ hk)
      have back := toGuest_toHost drops fits left left' g hf used
      rw [same f hf used, if_pos hk] at back
      exact back.symm
    · intro k hk
      obtain ⟨f, hf, used, rfl⟩ := drops.within k (List.mem_append_left _ hk)
      have back := toGuest_toHost drops fits left left' g hf used
      rwa [same f hf used, if_neg (apart drops hk), if_pos hk] at back
  · rintro ⟨stays, nothing⟩ f hf used
    rw [toGuest_toHost drops fits left left' g hf used]
    split
    · rename_i hk
      exact stays _ hk
    · split
      · rename_i hk
        exact (nothing _ hk).symm
      · rfl

/-- The constructor sets all fields from the host's, unless it leaves some out. -/
theorem produced_iff (drops : c.Drops unpassed unreturned) (fits : c.Fits host) (left : c.guest.Value) (h : host.Value) :
    (∀ f ∈ c.guest, f.padding = false → c.toGuest left h f.key = (h f.key).setWidth _) ↔
      ∀ k ∈ unreturned, left k = (h k).setWidth _ := by
  constructor
  · intro same k hk
    obtain ⟨f, hf, used, rfl⟩ := drops.within k (List.mem_append_right _ hk)
    rw [← same f hf used, toGuest_apply drops fits left h hf used, if_pos hk]
  · intro stays f hf used
    rw [toGuest_apply drops fits left h hf used]
    split
    · rename_i hk
      exact stays _ hk
    · rfl

end Copies

namespace Halves

/-- The fields that are copied and those that are halves of others are all fields, each once. -/
structure Complete (c : Halves) (host : Layout FieldName) : Prop where
  lows : (c.halves.map Prod.fst).Nodup
  highs : (c.halves.map Prod.snd).Nodup
  apart : ∀ k ∈ c.copied ++ c.halves.map Prod.fst, k ∉ c.halves.map Prod.snd
  copied : ∀ k ∈ c.copied, k ∉ c.halves.map Prod.fst
  all : ∀ f ∈ c.guest, f.padding = false → f.key ∈ c.copied ++ c.halves.map Prod.fst ++ c.halves.map Prod.snd
  words : ∀ p ∈ c.halves, c.guest.type p.1 = uint32_t ∧ c.guest.type p.2 = uint32_t ∧ host.type p.1 = int64_t
  fits : ∀ k ∈ c.copied, (c.guest.type k).bits ≤ (host.type k).bits

/-! ### Words -/

theorem upper_bits (x y : BitVec 32) : ((x.setWidth 64 <<< 32 ||| y.setWidth 64).sshiftRight 32).setWidth 32 = x := by
  apply BitVec.eq_of_getLsbD_eq
  intro i hi
  have above : 32 + i < 64 := by omega
  have inside : ¬ 64 ≤ i := by omega
  simp [BitVec.getLsbD_sshiftRight, hi, above, inside]

theorem lower_bits (x y : BitVec 32) : (x.setWidth 64 <<< 32 ||| y.setWidth 64).setWidth 32 = y := by
  apply BitVec.eq_of_getLsbD_eq
  intro i hi
  simp [hi]

theorem sshiftRight_bits (v : BitVec 64) : (v.sshiftRight 32).setWidth 32 = v.extractLsb' 32 32 := by
  apply BitVec.eq_of_getLsbD_eq
  intro i hi
  have above : 32 + i < 64 := by omega
  have inside : ¬ 64 ≤ i := by omega
  simp [BitVec.getLsbD_sshiftRight, hi, above, inside]

section Words
variable {l u w : CInt} (hl : l = uint32_t) (hu : u = uint32_t) (hw : w = int64_t)
include hl hu hw

theorem upper_join (x : BitVec u.bits) (y : BitVec l.bits) :
    w.convert u ((u.convert w x <<< 32 ||| l.convert w y).sshiftRight 32) = x := by
  subst hl hu hw
  rw [CInt.convert_of_le (by decide)]
  exact upper_bits x y

theorem lower_join (x : BitVec u.bits) (y : BitVec l.bits) : w.convert l (u.convert w x <<< 32 ||| l.convert w y) = y := by
  subst hl hu hw
  rw [CInt.convert_of_le (by decide)]
  exact lower_bits x y

omit hl in
theorem upper_eq (v : BitVec w.bits) : w.convert u (v.sshiftRight 32) = v.extractLsb' 32 u.bits := by
  subst hu hw
  rw [CInt.convert_of_le (by decide)]
  exact sshiftRight_bits v

end Words

/-! ### Fields -/

instance (c : Halves) (host : Layout FieldName) : Decidable (c.Complete host) :=
  decidable_of_iff
    ((c.halves.map Prod.fst).Nodup ∧ (c.halves.map Prod.snd).Nodup ∧
      (∀ k ∈ c.copied ++ c.halves.map Prod.fst, k ∉ c.halves.map Prod.snd) ∧
      (∀ k ∈ c.copied, k ∉ c.halves.map Prod.fst) ∧
      (∀ f ∈ c.guest, f.padding = false → f.key ∈ c.copied ++ c.halves.map Prod.fst ++ c.halves.map Prod.snd) ∧
      (∀ p ∈ c.halves, c.guest.type p.1 = uint32_t ∧ c.guest.type p.2 = uint32_t ∧ host.type p.1 = int64_t) ∧
      ∀ k ∈ c.copied, (c.guest.type k).bits ≤ (host.type k).bits)
    ⟨fun ⟨h1, h2, h3, h4, h5, h6, h7⟩ => ⟨h1, h2, h3, h4, h5, h6, h7⟩,
      fun h => ⟨h.lows, h.highs, h.apart, h.copied, h.all, h.words, h.fits⟩⟩

theorem find?_of_mem {α κ : Type} [DecidableEq κ] {l : List α} {key : α → κ} {p : α} (nodup : (l.map key).Nodup) (hp : p ∈ l) :
    l.find? (fun q => key q = key p) = some p := by
  induction l with
  | nil => cases hp
  | cons q l ih =>
    rw [List.map_cons, List.nodup_cons] at nodup
    rw [List.find?_cons]
    rcases List.mem_cons.1 hp with rfl | hp
    · simp
    · have differ : key q ≠ key p := by
        intro same
        apply nodup.1
        rw [same]
        exact List.mem_map_of_mem hp
      rw [decide_eq_false differ]
      exact ih nodup.2 hp

theorem find?_none {α κ : Type} [DecidableEq κ] {l : List α} {key : α → κ} {k : κ} (h : k ∉ l.map key) :
    l.find? (fun q => key q = k) = none := by
  rw [List.find?_eq_none]
  intro q hq same
  apply h
  rw [← of_decide_eq_true same]
  exact List.mem_map_of_mem hq

variable {c : Halves} {host : Layout FieldName}

/-- What the constructor makes of the host's structure. -/
def expected (c : Halves) {host : Layout FieldName} (h : host.Value) (k : FieldName) : BitVec (c.guest.type k).bits :=
  match c.halves.find? fun p => p.2 = k with
  | some p => (h p.1).extractLsb' 32 _
  | none => (h k).setWidth _

variable {p : FieldName × FieldName} {k : FieldName} {f : Member FieldName}

theorem expected_upper (complete : c.Complete host) (h : host.Value) (hp : p ∈ c.halves) :
    c.expected h p.2 = (h p.1).extractLsb' 32 _ := by
  rw [expected, find?_of_mem complete.highs hp]

theorem expected_of_notMem {h : host.Value} (hk : k ∉ c.halves.map Prod.snd) : c.expected h k = (h k).setWidth _ := by
  rw [expected, find?_none hk]

theorem toGuest_upper (complete : c.Complete host) (left : c.guest.Value) (h : host.Value)
    (hp : p ∈ c.halves) : c.toGuest left h p.2 = upper h p.1 p.2 := by
  simp [toGuest, find?_of_mem complete.highs hp]

theorem toGuest_copied (hk : k ∈ c.copied ++ c.halves.map Prod.fst)
    (apart : k ∉ c.halves.map Prod.snd) (left : c.guest.Value) (h : host.Value) :
    c.toGuest left h k = (host.type k).convert (c.guest.type k) (h k) := by
  simp only [toGuest, find?_none apart]
  exact Layout.copyInto_mem hk _ _

theorem toHost_lower (complete : c.Complete host) (left : host.Value) (g : c.guest.Value)
    (hp : p ∈ c.halves) : c.toHost left g p.1 = join g p.1 p.2 := by
  simp [toHost, find?_of_mem complete.lows hp]

theorem toHost_copied (complete : c.Complete host) (hk : k ∈ c.copied) (left : host.Value) (g : c.guest.Value) :
    c.toHost left g k = (c.guest.type k).convert (host.type k) (g k) := by
  simp only [toHost, find?_none (complete.copied k hk)]
  exact Layout.copyInto_mem hk _ _

theorem cases_key (complete : c.Complete host) (hf : f ∈ c.guest) (used : f.padding = false) :
    f.key ∈ c.copied ∨ (∃ p ∈ c.halves, p.1 = f.key) ∨ ∃ p ∈ c.halves, p.2 = f.key := by
  have all := complete.all f hf used
  rw [List.mem_append, List.mem_append, List.mem_map, List.mem_map, or_assoc] at all
  exact all

theorem toGuest_toHost (complete : c.Complete host) (left : c.guest.Value) (left' : host.Value) (g : c.guest.Value)
    (hf : f ∈ c.guest) (used : f.padding = false) : c.toGuest left (c.toHost left' g) f.key = g f.key := by
  rcases cases_key complete hf used with hk | ⟨p, hp, hk⟩ | ⟨p, hp, hk⟩
  · have returned := List.mem_append_left (c.halves.map Prod.fst) hk
    rw [toGuest_copied returned (complete.apart _ returned), toHost_copied complete hk]
    exact CInt.convert_convert (complete.fits _ hk) _
  · have returned : p.1 ∈ c.copied ++ c.halves.map Prod.fst := List.mem_append_right _ (List.mem_map_of_mem hp)
    obtain ⟨low, high, time⟩ := complete.words p hp
    rw [← hk, toGuest_copied returned (complete.apart _ returned), toHost_lower complete _ _ hp]
    exact lower_join low high time _ _
  · obtain ⟨low, high, time⟩ := complete.words p hp
    rw [← hk, toGuest_upper complete _ _ hp, upper, toHost_lower complete _ _ hp]
    exact upper_join low high time _ _

theorem toGuest_apply (complete : c.Complete host) (left : c.guest.Value) (h : host.Value)
    (hf : f ∈ c.guest) (used : f.padding = false) : c.toGuest left h f.key = c.expected h f.key := by
  rcases cases_key complete hf used with hk | ⟨p, hp, hk⟩ | ⟨p, hp, hk⟩
  · have returned := List.mem_append_left (c.halves.map Prod.fst) hk
    have apart := complete.apart _ returned
    rw [toGuest_copied returned apart, expected_of_notMem apart]
    exact CInt.convert_of_le (complete.fits _ hk) _
  · have returned : p.1 ∈ c.copied ++ c.halves.map Prod.fst := List.mem_append_right _ (List.mem_map_of_mem hp)
    have apart := complete.apart _ returned
    obtain ⟨low, high, time⟩ := complete.words p hp
    rw [← hk, toGuest_copied returned apart, expected_of_notMem apart]
    apply CInt.convert_of_le
    rw [low, time]
    decide
  · obtain ⟨low, high, time⟩ := complete.words p hp
    rw [← hk, toGuest_upper complete _ _ hp, upper, expected_upper complete _ hp]
    exact upper_eq high time _

end Halves

end FexEmu.X32
