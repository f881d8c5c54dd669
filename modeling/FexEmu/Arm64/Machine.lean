import FexEmu.Data.ByteMemory
/-!
# A part of AArch64

The instructions that the emitter uses around calls. A called function and the kernel are arbitrary: they are
functions of the whole state.
-/
namespace FexEmu.Arm64

open ByteMemory

abbrev XReg := Fin 31
abbrev VReg := Fin 32

scoped instance ne_zero_8 : NeZero 8 := ⟨by decide⟩
scoped instance ne_zero_31 : NeZero 31 := ⟨by decide⟩
scoped instance ne_zero_32 : NeZero 32 := ⟨by decide⟩

abbrev lr : XReg := 30

/-- The registers and memory of the host. -/
structure State where
  x : XReg → BitVec 64
  sp : BitVec 64
  pc : BitVec 64
  v : VReg → BitVec 128
  mem : Memory

namespace State

def setX (s : State) (r : XReg) (value : BitVec 64) : State := { s with x := Function.update s.x r value }

def setV (s : State) (r : VReg) (value : BitVec 128) : State := { s with v := Function.update s.v r value }

def store {w : Nat} (s : State) (a : BitVec 64) (value : BitVec w) : State := { s with mem := write s.mem a value }

def load (s : State) (a : BitVec 64) (w : Nat) : BitVec w := read s.mem a w

end State

/-! ## Operands -/

/-- A general register or the stack pointer. -/
inductive Base
  | x (r : XReg)
  | sp
deriving DecidableEq, Repr

def State.get (s : State) : Base → BitVec 64
  | .x r => s.x r
  | .sp => s.sp

def State.set (s : State) (b : Base) (value : BitVec 64) : State :=
  match b with
  | .x r => s.setX r value
  | .sp => { s with sp := value }

/-- How an access changes its base. -/
inductive AddrMode
  | offset
  | preIndex
  | postIndex
deriving DecidableEq, Repr

/-- A memory operand. -/
structure MemOperand where
  base : Base
  offset : BitVec 64
  mode : AddrMode
deriving DecidableEq, Repr

namespace MemOperand

def address (m : MemOperand) (s : State) : BitVec 64 :=
  match m.mode with
  | .offset => s.get m.base + m.offset
  | .preIndex => s.get m.base + m.offset
  | .postIndex => s.get m.base

/-- The new value of the base register goes back to it, from what it was before. -/
def writeBack (m : MemOperand) (before s : State) : State :=
  match m.mode with
  | .offset => s
  | .preIndex => s.set m.base (before.get m.base + m.offset)
  | .postIndex => s.set m.base (before.get m.base + m.offset)

end MemOperand

/-! ## Instructions -/

/-- `W` forms use the low half of a register, `D` and `S` forms are scalars. The offset of `adrp` is in pages. -/
inductive Instr
  | nop
  | movz (d : XReg) (imm : BitVec 16) (shift : Nat)
  | movk (d : XReg) (imm : BitVec 16) (shift : Nat)
  | movn (d : XReg) (imm : BitVec 16)
  | adr (d : XReg) (offset : BitVec 64)
  | adrp (d : XReg) (offset : BitVec 64)
  | mov (d s : XReg)
  | movW (d s : XReg)
  | uxth (d s : XReg)
  | addImm (d s : Base) (imm : BitVec 64)
  | subImm (d s : Base) (imm : BitVec 64)
  | addReg (d s : Base) (r : XReg)
  | addImmW (d s : XReg) (imm : BitVec 32)
  | subImmW (d s : XReg) (imm : BitVec 32)
  | orrLsl (d s r : XReg) (shift : Nat)
  | str (r : XReg) (m : MemOperand)
  | ldr (r : XReg) (m : MemOperand)
  | strXzr (m : MemOperand)
  | strW (r : XReg) (m : MemOperand)
  | ldrW (r : XReg) (m : MemOperand)
  | stp (r r' : XReg) (m : MemOperand)
  | ldp (r r' : XReg) (m : MemOperand)
  | ldpW (r r' : XReg) (m : MemOperand)
  | strQ (r : VReg) (m : MemOperand)
  | ldrQ (r : VReg) (m : MemOperand)
  | stpQ (r r' : VReg) (m : MemOperand)
  | ldpQ (r r' : VReg) (m : MemOperand)
  | st4D (r₀ r₁ r₂ r₃ : VReg) (m : MemOperand)
  | ld4D (r₀ r₁ r₂ r₃ : VReg) (m : MemOperand)
  | movD (d s : VReg)
  | movS (d s : VReg)
  | eorV (d s s' : VReg)
  | insD (d : VReg) (lane : Fin 2) (r : XReg)
  | insH (d : VReg) (lane : Fin 8) (r : XReg)
  | umovD (d : XReg) (s : VReg) (lane : Fin 2)
  | umovH (d : XReg) (s : VReg) (lane : Fin 8)
  | blr (r : XReg)
  | svc
deriving DecidableEq, Repr

/-- What lies outside of the emitted code: the function called, and the kernel. -/
structure Env where
  call : State → State
  kernel : State → State

def lowW (x : BitVec 64) : BitVec 32 := x.setWidth 32

def lowD (x : BitVec 128) : BitVec 64 := x.setWidth 64

def lane (x : BitVec 128) (w i : Nat) : BitVec w := x.extractLsb' (w * i) w

def setLane {w : Nat} (x : BitVec 128) (i : Nat) (value : BitVec w) : BitVec 128 :=
  (x &&& ~~~(((BitVec.allOnes w).setWidth 128) <<< (w * i))) ||| (value.setWidth 128 <<< (w * i))

def Instr.effect (env : Env) (s : State) : Instr → State
  | .nop => s
  | .movz d imm shift => s.setX d (imm.setWidth 64 <<< shift)
  | .movk d imm shift => s.setX d ((s.x d &&& ~~~((BitVec.allOnes 16).setWidth 64 <<< shift)) ||| (imm.setWidth 64 <<< shift))
  | .movn d imm => s.setX d (~~~(imm.setWidth 64))
  | .adr d offset => s.setX d (s.pc + offset)
  | .adrp d offset => s.setX d ((s.pc &&& ~~~0xFFF#64) + offset <<< 12)
  | .mov d r => s.setX d (s.x r)
  | .movW d r => s.setX d ((lowW (s.x r)).setWidth 64)
  | .uxth d r => s.setX d (((s.x r).setWidth 16).setWidth 64)
  | .addImm d r imm => s.set d (s.get r + imm)
  | .subImm d r imm => s.set d (s.get r - imm)
  | .addReg d r r' => s.set d (s.get r + s.x r')
  | .addImmW d r imm => s.setX d ((lowW (s.x r) + imm).setWidth 64)
  | .subImmW d r imm => s.setX d ((lowW (s.x r) - imm).setWidth 64)
  | .orrLsl d r r' shift => s.setX d (s.x r ||| s.x r' <<< shift)
  | .str r m => m.writeBack s (s.store (m.address s) (s.x r))
  | .ldr r m => m.writeBack s (s.setX r (s.load (m.address s) 64))
  | .strXzr m => m.writeBack s (s.store (m.address s) 0#64)
  | .strW r m => m.writeBack s (s.store (m.address s) (lowW (s.x r)))
  | .ldrW r m => m.writeBack s (s.setX r ((s.load (m.address s) 32).setWidth 64))
  | .stp r r' m => m.writeBack s ((s.store (m.address s) (s.x r)).store (m.address s + 8#64) (s.x r'))
  | .ldp r r' m => m.writeBack s ((s.setX r (s.load (m.address s) 64)).setX r' (s.load (m.address s + 8#64) 64))
  | .ldpW r r' m => m.writeBack s
      ((s.setX r ((s.load (m.address s) 32).setWidth 64)).setX r' ((s.load (m.address s + 4#64) 32).setWidth 64))
  | .strQ r m => m.writeBack s (s.store (m.address s) (s.v r))
  | .ldrQ r m => m.writeBack s (s.setV r (s.load (m.address s) 128))
  | .stpQ r r' m => m.writeBack s ((s.store (m.address s) (s.v r)).store (m.address s + 16#64) (s.v r'))
  | .ldpQ r r' m => m.writeBack s ((s.setV r (s.load (m.address s) 128)).setV r' (s.load (m.address s + 16#64) 128))
  | .st4D r₀ r₁ r₂ r₃ m =>
    let a := m.address s
    m.writeBack s ((((s.store a (lowD (s.v r₀))).store (a + 8#64) (lowD (s.v r₁))).store (a + 16#64)
      (lowD (s.v r₂))).store (a + 24#64) (lowD (s.v r₃)))
  | .ld4D r₀ r₁ r₂ r₃ m =>
    let a := m.address s
    m.writeBack s ((((s.setV r₀ (setLane (s.v r₀) 0 (s.load a 64))).setV r₁ (setLane (s.v r₁) 0 (s.load (a + 8#64) 64))).setV
      r₂ (setLane (s.v r₂) 0 (s.load (a + 16#64) 64))).setV r₃ (setLane (s.v r₃) 0 (s.load (a + 24#64) 64)))
  | .movD d r => s.setV d ((lowD (s.v r)).setWidth 128)
  | .movS d r => s.setV d (((s.v r).setWidth 32).setWidth 128)
  | .eorV d r r' => s.setV d (s.v r ^^^ s.v r')
  | .insD d i r => s.setV d (setLane (s.v d) i (s.x r))
  | .insH d i r => s.setV d (setLane (s.v d) i ((s.x r).setWidth 16))
  | .umovD d r i => s.setX d (lane (s.v r) 64 i)
  | .umovH d r i => s.setX d ((lane (s.v r) 16 i).setWidth 64)
  | .blr r => env.call { s.setX lr (s.pc + 4#64) with pc := s.x r }
  | .svc => env.kernel s

def Instr.exec (env : Env) (s : State) (i : Instr) : State :=
  { i.effect env s with pc := s.pc + 4#64 }

def run (env : Env) (code : List Instr) (s : State) : State := code.foldl (Instr.exec env) s

theorem run_nil (env : Env) (s : State) : run env [] s = s := rfl

theorem run_cons (env : Env) (i : Instr) (c : List Instr) (s : State) : run env (i :: c) s = run env c (i.exec env s) := by
  simp [run]

theorem run_append (env : Env) (c c' : List Instr) (s : State) : run env (c ++ c') s = run env c' (run env c s) :=
  List.foldl_append

end FexEmu.Arm64
