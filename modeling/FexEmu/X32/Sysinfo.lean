import Mathlib.Tactic
import Mathlib.Data.BitVec
/-!
# System information

If the memory does not fit into 32 bits of the host's units, larger units are taken.
-/
namespace FexEmu.X32

/-- What a structure says, with `w` bits for sizes. -/
structure Sysinfo (w : Nat) where
  uptime : BitVec w
  loads : Fin 3 → BitVec w
  totalram : BitVec w
  freeram : BitVec w
  sharedram : BitVec w
  bufferram : BitVec w
  totalswap : BitVec w
  freeswap : BitVec w
  procs : BitVec 16
  totalhigh : BitVec w
  freehigh : BitVec w
  mem_unit : BitVec 32

abbrev sysinfo := Sysinfo 64

abbrev sysinfo32 := Sysinfo 32

namespace sysinfo

/-- `Copy` of an unsigned field -/
def Copy {w : Nat} (v : BitVec w) (n : Nat) : BitVec n := BitVec.ofNat n (min v.toNat (2 ^ n - 1))

/-- `Copy` of a signed field -/
def CopySigned {w : Nat} (v : BitVec w) (n : Nat) : BitVec n := BitVec.ofInt n (min v.toInt (2 ^ (n - 1) - 1))

def grow : Nat → BitVec 32 → Nat → Option (BitVec 32 × Nat)
  | 0, _, _ => none
  | steps + 1, mem_unit, ShiftAmount =>
    if mem_unit.toNat < 4096 then grow steps (mem_unit <<< 1) (ShiftAmount + 1) else some (mem_unit, ShiftAmount)

/-- A total has more than 32 bits, so the kernel scales the sizes. -/
def Large (Host : sysinfo) : Prop := Host.totalram >>> 32 ≠ 0 ∨ Host.totalswap >>> 32 ≠ 0

instance (Host : sysinfo) : Decidable (Large Host) := inferInstanceAs (Decidable (_ ∨ _))

def units (steps : Nat) (Host : sysinfo) : Option (BitVec 32 × Nat) :=
  if Large Host then grow steps Host.mem_unit 0 else some (Host.mem_unit, 0)

def fill (steps : Nat) (Host : sysinfo) (info : sysinfo32) : Option sysinfo32 := do
  let (mem_unit, ShiftAmount) ← units steps Host
  let CopyShift (v : BitVec 64) : BitVec 32 := (v >>> ShiftAmount).setWidth 32
  some
    { info with
      uptime := CopySigned Host.uptime 32
      procs := Copy Host.procs 16
      loads := fun i => Copy (Host.loads i) 32
      totalram := CopyShift Host.totalram
      sharedram := CopyShift Host.sharedram
      bufferram := CopyShift Host.bufferram
      totalswap := CopyShift Host.totalswap
      freeswap := CopyShift Host.freeswap
      totalhigh := CopyShift Host.totalhigh
      freehigh := CopyShift Host.freehigh
      mem_unit := Copy mem_unit 32 }

/-! ## Units -/

/-- The power of two that the units are taken by: none if everything fits, else the least one with units of a page. -/
structure Units (Host : sysinfo) (k : Nat) : Prop where
  small : ¬ Large Host → k = 0
  page : Large Host → 4096 ≤ Host.mem_unit.toNat * 2 ^ k
  least : ∀ j < k, Host.mem_unit.toNat * 2 ^ j < 4096

/-- The guest's structure says what the host's says, in units that are taken by a power of two. -/
structure Tells (Host : sysinfo) (k : Nat) (info : sysinfo32) : Prop where
  units : Units Host k
  mem_unit : info.mem_unit.toNat = Host.mem_unit.toNat * 2 ^ k
  uptime : info.uptime = CopySigned Host.uptime 32
  procs : info.procs = Host.procs
  loads : ∀ i, info.loads i = Copy (Host.loads i) 32
  totalram : info.totalram = (Host.totalram >>> k).setWidth 32
  freeram : info.freeram = (Host.freeram >>> k).setWidth 32
  sharedram : info.sharedram = (Host.sharedram >>> k).setWidth 32
  bufferram : info.bufferram = (Host.bufferram >>> k).setWidth 32
  totalswap : info.totalswap = (Host.totalswap >>> k).setWidth 32
  freeswap : info.freeswap = (Host.freeswap >>> k).setWidth 32
  totalhigh : info.totalhigh = (Host.totalhigh >>> k).setWidth 32
  freehigh : info.freehigh = (Host.freehigh >>> k).setWidth 32

theorem Copy_self {n : Nat} (v : BitVec n) : Copy v n = v := by
  apply BitVec.eq_of_toNat_eq
  rw [Copy, BitVec.toNat_ofNat, Nat.min_eq_left (by omega), Nat.mod_eq_of_lt v.isLt]

theorem toNat_double {u : BitVec 32} (h : u.toNat < 4096) : (u <<< 1).toNat = 2 * u.toNat := by
  rw [BitVec.toNat_shiftLeft, Nat.shiftLeft_eq]
  omega

theorem grow_spec {steps shift s : Nat} {u u' : BitVec 32} (h : grow steps u shift = some (u', s)) :
    ∃ k, s = shift + k ∧ u'.toNat = u.toNat * 2 ^ k ∧ 4096 ≤ u'.toNat ∧ ∀ j < k, u.toNat * 2 ^ j < 4096 := by
  induction steps generalizing u shift with
  | zero => cases h
  | succ steps ih =>
    rw [grow] at h
    split at h
    · rename_i lt
      obtain ⟨k, hs, hu, page, least⟩ := ih h
      rw [toNat_double lt] at hu least
      refine ⟨k + 1, by omega, by rw [hu, pow_succ]; ring, page, ?_⟩
      intro j hj
      cases j with
      | zero => omega
      | succ j =>
        have := least j (by omega)
        rw [pow_succ]
        linarith
    · rename_i ge
      cases h
      exact ⟨0, rfl, by simp, by omega, by simp⟩

theorem grow_isSome {steps shift : Nat} {u : BitVec 32} (pos : 0 < u.toNat) (enough : 4096 < u.toNat + steps)
    (start : 0 < steps) : ∃ r, grow steps u shift = some r := by
  induction steps generalizing u shift with
  | zero => cases start
  | succ steps ih =>
    rw [grow]
    split
    · rename_i lt
      apply ih
      · rw [toNat_double lt]
        omega
      · rw [toNat_double lt]
        omega
      · omega
    · exact ⟨_, rfl⟩

theorem Units.eq {Host : sysinfo} {k k' : Nat} (h : Units Host k) (h' : Units Host k') : k = k' := by
  by_cases large : Large Host
  · apply Nat.le_antisymm
    · by_contra lt
      have := h.least k' (by omega)
      have := h'.page large
      omega
    · by_contra lt
      have := h'.least k (by omega)
      have := h.page large
      omega
  · rw [h.small large, h'.small large]

theorem units_spec {steps k : Nat} {Host : sysinfo} {u : BitVec 32} (h : units steps Host = some (u, k)) :
    Units Host k ∧ u.toNat = Host.mem_unit.toNat * 2 ^ k := by
  rw [units] at h
  split at h
  · rename_i large
    obtain ⟨j, hj, hu, page, least⟩ := grow_spec h
    rw [Nat.zero_add] at hj
    subst hj
    rw [hu] at page
    exact ⟨⟨fun small => absurd large small, fun _ => page, least⟩, hu⟩
  · rename_i small
    cases h
    exact ⟨⟨fun _ => rfl, fun large => absurd large small, by simp⟩, by simp⟩

theorem units_exists {k : Nat} {Host : sysinfo} (h : Units Host k) : ∃ steps u, units steps Host = some (u, k) := by
  by_cases large : Large Host
  · have pos : 0 < Host.mem_unit.toNat := by
      have := h.page large
      by_contra zero
      rw [Nat.eq_zero_of_not_pos zero] at this
      simp at this
    obtain ⟨⟨u, j⟩, hr⟩ := @grow_isSome 4097 0 Host.mem_unit pos (by omega) (by omega)
    have found : units 4097 Host = some (u, j) := (if_pos large).trans hr
    rw [h.eq (units_spec found).1]
    exact ⟨4097, u, found⟩
  · rw [h.small large]
    exact ⟨0, Host.mem_unit, if_neg large⟩

/-! ## The guest's structure -/

/-- The handler ends with a structure that says what the host's says. -/
def Told (Host : sysinfo) (info : sysinfo32) : Prop := ∃ steps k r, fill steps Host info = some r ∧ Tells Host k r

theorem told_iff (Host : sysinfo) (info : sysinfo32) :
    Told Host info ↔ ∃ k, Units Host k ∧ info.freeram = (Host.freeram >>> k).setWidth 32 := by
  constructor
  · rintro ⟨steps, k, r, run, tells⟩
    obtain ⟨⟨u, j⟩, _, made⟩ := Option.bind_eq_some_iff.1 run
    cases made
    exact ⟨k, tells.units, tells.freeram⟩
  · rintro ⟨k, hk, free⟩
    obtain ⟨steps, u, run⟩ := units_exists hk
    refine ⟨steps, k, _, by rw [fill, run]; rfl, ?_⟩
    exact
      { units := hk
        mem_unit := (congrArg BitVec.toNat (Copy_self u)).trans (units_spec run).2
        uptime := rfl
        procs := Copy_self _
        loads := fun _ => rfl
        totalram := rfl
        freeram := free
        sharedram := rfl
        bufferram := rfl
        totalswap := rfl
        freeswap := rfl
        totalhigh := rfl
        freehigh := rfl }

end sysinfo

end FexEmu.X32
