import FexEmu.Frontend.Instruction
/-!
# Groups

The entry of an opcode can stand for a group. `NormalOpHeader` then looks the instruction up in another table, with the ModRM
byte and, in the second groups, with the last prefix that can be a part of an opcode.
-/
namespace FexEmu.Frontend.Prefixes

open FlatMemory (Byte)
open ModRM (rmField regField)
open Instruction (InstInfo InstType regToField)

/-- A row of a table, with its name. -/
structure TableEntry extends InstInfo where
  name : String

/-- The tables. The handlers of instructions are installed under their names. -/
abbrev Entries := OpTable → Nat → TableEntry

/-- A call of `NormalOp`: the entry, and how many bytes `NormalOpHeader` has read for it. -/
structure NormalOpCall where
  table : OpTable
  op : Nat
  bytes : Nat

def NormalOpCall.entry (entries : Entries) (call : NormalOpCall) : TableEntry := entries call.table call.op

/-- The rows of a second group: no prefix, `F3`, `66` and `F2`. -/
def pfNone : Nat := 0
def pfF3 : Nat := 1
def pf66 : Nat := 2
def pfF2 : Nat := 3

def prefixType (lastEscapePrefix : Byte) : Nat :=
  if lastEscapePrefix = 0xF3 then pfF3
  else if lastEscapePrefix = 0xF2 then pfF2
  else if lastEscapePrefix = 0x66 then pf66
  else pfNone

def secondGroupOp (entries : Entries) (group row : Nat) (modRM : Byte) : NormalOpCall :=
  let localOp := group <<< 5 ||| row <<< 3 ||| regField modRM
  if (entries .secondInstGroupOps localOp).type = .secondGroupModRM then
    ⟨.secondModRMTableOps, regToField.getD (regField modRM) 255 <<< 3 ||| rmField modRM, 1⟩
  else ⟨.secondInstGroupOps, localOp, 1⟩

/-- `NormalOpHeader` for an entry. What is behind a VEX or EVEX prefix does not depend on the prefixes before it. -/
def normalOpHeader (entries : Entries) (table : OpTable) (op row : Nat) (modRM : Byte) : NormalOpCall :=
  let info := entries table op
  match info.type with
  | .group1To11 group => ⟨.primaryInstGroupOps, group.val <<< 6 ||| info.moreBytes <<< 3 ||| regField modRM, 1⟩
  | .group6ToP group => secondGroupOp entries group.val row modRM
  | .x87TablePrefix => ⟨.x87Ops, (op - 0xD8) <<< 8 ||| modRM.toNat, 1⟩
  | _ => ⟨table, op, 0⟩

end FexEmu.Frontend.Prefixes
