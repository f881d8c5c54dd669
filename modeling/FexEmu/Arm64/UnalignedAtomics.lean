import FexEmu.Data.ByteMemory
/-!
# Atomics that are not aligned

The handlers of `BUS_ADRALN` inside a 16-byte granule: each one merges the wanted bytes into the aligned word around them and
tries a compare-exchange of it.
-/
namespace FexEmu.Arm64.Unaligned

open ByteMemory

/-! ## The loop of one instance -/

/-- `mcontext->regs`. -/
abbrev Regs := Nat → BitVec 64

/-- The expected or the desired value, from the value in memory and the one of the caller. -/
abbrev CASFn (n : Nat) := BitVec n → BitVec n → BitVec n

/-- A loop of compare and exchange, with the parameters of its template. -/
structure CasLoop where
  width : Nat
  size : Nat
  addr : BitVec 64
  alignment : Nat
  retry : Bool
  expectedSrc : BitVec size
  desiredSrc : BitVec size
  expectedFunction : CASFn size
  desiredFunction : CASFn size

namespace CasLoop
variable (c : CasLoop)

def shift : Nat := c.alignment * 8

def mask : BitVec c.width := (BitVec.allOnes c.size).setWidth c.width <<< c.shift

def extract (word : BitVec c.width) : BitVec c.size := (word >>> c.shift).setWidth c.size

def merge (word : BitVec c.width) (x : BitVec c.size) : BitVec c.width :=
  (word &&& ~~~c.mask) ||| (x.setWidth c.width <<< c.shift)

def expected (word : BitVec c.width) : BitVec c.size := c.expectedFunction (c.extract word) c.expectedSrc

def desired (word : BitVec c.width) : BitVec c.size := c.desiredFunction (c.extract word) c.desiredSrc

def tmpExpected (word : BitVec c.width) : BitVec c.width := c.merge word (c.expected word)

def tmpDesired (word : BitVec c.width) : BitVec c.width := c.merge (c.tmpExpected word) (c.desired word)

end CasLoop

/-- Where the loop is. -/
inductive Pc (c : CasLoop)
  | load
  | exchange (word : BitVec c.width)
  | returned (result : BitVec c.size)
deriving DecidableEq

def CasLoop.failed (c : CasLoop) (word actual : BitVec c.width) : Pc c :=
  if c.retry then .load
  else if (actual &&& ~~~c.mask) ^^^ (c.tmpDesired word &&& ~~~c.mask) ≠ 0 then .load
  else .returned (((actual &&& c.mask) >>> c.shift).setWidth c.size)

/-- A handler for given registers: its loop, and what its end does with the result and whether it was written. -/
structure Task where
  loop : CasLoop
  finish : Bool → BitVec loop.size → Regs → Regs

/-- One atomic access of a handler. -/
structure Access where
  before : Memory
  after : Memory
  wrote : Bool

/-- The thread in its loop, and the accesses so far, the others' among them. -/
structure World (t : Task) where
  mem : Memory
  regs : Regs
  pc : Pc t.loop
  accesses : List Access

section Steps
variable {t : Task}

def finishAt (wrote : Bool) (regs : Regs) : Pc t.loop → Regs
  | .returned result => t.finish wrote result regs
  | _ => regs

def World.access (w : World t) : World t :=
  match w.pc with
  | .returned _ => w
  | .load =>
    { w with
      pc := .exchange (read w.mem t.loop.addr t.loop.width)
      accesses := w.accesses ++ [⟨w.mem, w.mem, false⟩] }
  | .exchange word =>
    let actual := read w.mem t.loop.addr t.loop.width
    if actual = t.loop.tmpExpected word then
      let mem := write w.mem t.loop.addr (t.loop.tmpDesired word)
      let result := t.loop.expected word
      ⟨mem, t.finish true result w.regs, .returned result, w.accesses ++ [⟨w.mem, mem, true⟩]⟩
    else
      let pc := t.loop.failed word actual
      ⟨w.mem, finishAt false w.regs pc, pc, w.accesses ++ [⟨w.mem, w.mem, false⟩]⟩

/-- A step is an access of the handler, or other threads change any bytes. -/
inductive Event
  | access
  | others (mem : Memory)

def World.step (w : World t) : Event → World t
  | .access => w.access
  | .others mem => { w with mem := mem }

def World.initial (t : Task) (mem : Memory) (regs : Regs) : World t := ⟨mem, regs, .load, []⟩

end Steps

/-! ## The templates -/

section Templates
variable (retry : Bool)

/-- Nothing if the access crosses a 16-byte boundary: that takes two compare-exchanges. -/
def doCAS16 (desiredSrc expectedSrc : BitVec 16) (addr : BitVec 64) (expectedFunction desiredFunction : CASFn 16) :
    Option CasLoop :=
  if addr &&& 0b1111#64 = 15#64 then none
  else if addr &&& 0b111#64 = 7#64 then
    some ⟨128, 16, addr &&& ~~~0b1111#64, (addr &&& 0b1111#64).toNat, retry, expectedSrc, desiredSrc, expectedFunction,
      desiredFunction⟩
  else if addr &&& 0b11#64 = 3#64 then
    some ⟨64, 16, addr &&& ~~~0b11#64, (addr &&& 0b11#64).toNat, retry, expectedSrc, desiredSrc, expectedFunction,
      desiredFunction⟩
  else
    some ⟨32, 16, addr &&& ~~~0b11#64, (addr &&& 0b11#64).toNat, retry, expectedSrc, desiredSrc, expectedFunction,
      desiredFunction⟩

def doCAS32 (desiredSrc expectedSrc : BitVec 32) (addr : BitVec 64) (expectedFunction desiredFunction : CASFn 32) :
    Option CasLoop :=
  if addr &&& 0b1111#64 > 12#64 then none
  else if addr &&& 0b111#64 ≥ 5#64 then
    some ⟨128, 32, addr &&& ~~~0b1111#64, (addr &&& 0b1111#64).toNat, retry, expectedSrc, desiredSrc, expectedFunction,
      desiredFunction⟩
  else
    some ⟨64, 32, addr &&& ~~~0b111#64, (addr &&& 0b111#64).toNat, retry, expectedSrc, desiredSrc, expectedFunction,
      desiredFunction⟩

def doCAS64 (desiredSrc expectedSrc : BitVec 64) (addr : BitVec 64) (expectedFunction desiredFunction : CASFn 64) :
    Option CasLoop :=
  if addr &&& 0b1111#64 > 8#64 then none
  else
    some ⟨128, 64, addr &&& ~~~0b1111#64, (addr &&& 0b1111#64).toNat, retry, expectedSrc, desiredSrc, expectedFunction,
      desiredFunction⟩

end Templates

/-! ## The handlers -/

def srcFunction {n : Nat} : CASFn n := fun src _ => src

def argFunction {n : Nat} : CASFn n := fun _ arg => arg

/-- The operations of `HandleAtomicMemOp`, nothing for one that it does not handle. -/
def memOpFunction {n : Nat} (op : BitVec 4) : Option (CASFn n) :=
  match op.toNat with
  | 0b0000 => some fun src arg => src + arg
  | 0b0001 => some fun src arg => src &&& ~~~arg
  | 0b0010 => some fun src arg => src ^^^ arg
  | 0b0011 => some fun src arg => src ||| arg
  | 0b1000 => some argFunction
  | _ => none

/-- The codes of a bus error. -/
inductive SiCode
  | BUS_ADRALN
  | other
deriving DecidableEq

def sizeOf (instr : BitVec 32) : Nat := 2 ^ (instr >>> 30).toNat

def reg (instr : BitVec 32) (lsb : Nat) : Nat := ((instr >>> lsb) &&& 0b11111).toNat

def setReg (regs : Regs) (r : Nat) (x : BitVec 64) : Regs := Function.update regs r x

def Task.toReg (r : Nat) (c : CasLoop) : Task :=
  ⟨c, fun _ result regs => if r ≠ 31 then setReg regs r (result.setWidth 64) else regs⟩

def Task.toNone (c : CasLoop) : Task := ⟨c, fun _ _ regs => regs⟩

def handleAtomicMemOp (code : SiCode) (instr : BitVec 32) (regs : Regs) : Option Task :=
  if code ≠ .BUS_ADRALN then none
  else
    let resultReg := reg instr 0
    let source := regs (reg instr 16)
    let addr := regs (reg instr 5)
    let op := (instr >>> 12).setWidth 4
    match sizeOf instr with
    | 2 => (memOpFunction op).bind fun f => (doCAS16 true (source.setWidth 16) 0 addr srcFunction f).map (.toReg resultReg)
    | 4 => (memOpFunction op).bind fun f => (doCAS32 true (source.setWidth 32) 0 addr srcFunction f).map (.toReg resultReg)
    | 8 => (memOpFunction op).bind fun f => (doCAS64 true source 0 addr srcFunction f).map (.toReg resultReg)
    | _ => none

def handleAtomicStore (code : SiCode) (instr : BitVec 32) (offset : BitVec 64) (regs : Regs) : Option Task :=
  if code ≠ .BUS_ADRALN then none
  else
    let data := regs (reg instr 0)
    let addr := regs (reg instr 5) + offset
    let doRetry := false
    match sizeOf instr with
    | 2 => (doCAS16 doRetry (data.setWidth 16) 0 addr srcFunction argFunction).map .toNone
    | 4 => (doCAS32 doRetry (data.setWidth 32) 0 addr srcFunction argFunction).map .toNone
    | 8 => (doCAS64 doRetry data 0 addr srcFunction argFunction).map .toNone
    | _ => none

def runCASAL (size desiredReg expectedReg addressReg : Nat) (regs : Regs) : Option Task :=
  let desired := regs desiredReg
  let expected := regs expectedReg
  let addr := regs addressReg
  match size with
  | 2 =>
    (doCAS16 false (desired.setWidth 16) (expected.setWidth 16) addr argFunction argFunction).map (.toReg expectedReg)
  | 4 =>
    (doCAS32 false (desired.setWidth 32) (expected.setWidth 32) addr argFunction argFunction).map (.toReg expectedReg)
  | 8 => (doCAS64 false desired expected addr argFunction argFunction).map (.toReg expectedReg)
  | _ => none

def pair (regs : Regs) (lower upper : Nat) : BitVec 64 := (regs upper).setWidth 32 ++ (regs lower).setWidth 32

/-- A pair of 32-bit registers is one value of 64 bits. The registers are set only if the exchange failed. -/
def runCASPAL (size desiredReg1 desiredReg2 expectedReg1 expectedReg2 addressReg : Nat) (regs : Regs) : Option Task :=
  if size = 0 then
    let addr := regs addressReg
    if addr &&& 0b1111#64 > 8#64 then none
    else
      let loop : CasLoop := ⟨128, 64, addr &&& ~~~0b1111#64, (addr &&& 0b1111#64).toNat, false,
        pair regs expectedReg1 expectedReg2, pair regs desiredReg1 desiredReg2, argFunction, argFunction⟩
      some ⟨loop, fun wrote result regs =>
        if wrote then regs else setReg (setReg regs expectedReg1 (result &&& 0xFFFFFFFF)) expectedReg2 (result >>> 32)⟩
  else none

end FexEmu.Arm64.Unaligned
