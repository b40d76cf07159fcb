import ProxyCensus.Evm.Opcode

/-!
# Linear sweep

Code cut into instructions from its first byte on. Every byte that is not part of an operand starts
an instruction; an operand that is cut off at the end drops its instruction and ends the sweep.
-/

namespace ProxyCensus.Evm

/-- An instruction at its place in the code. -/
structure Instruction where
  offset : Nat
  opcode : UInt8
  operand : List UInt8
  deriving DecidableEq

def Instruction.name (i : Instruction) : String :=
  mnemonic i.opcode

def sweepFrom (offset : Nat) (code : List UInt8) : List Instruction :=
  match code with
  | [] => []
  | opcode :: rest =>
    let width := operandLength opcode
    let operand := rest.take width
    if operand.length < width then []
    else ⟨offset, opcode, operand⟩ :: sweepFrom (offset + 1 + width) (rest.drop width)
  termination_by code.length
  decreasing_by simp only [List.length_cons, List.length_drop]; omega

def sweep (code : List UInt8) : List Instruction :=
  sweepFrom 0 code

def Instruction.delegates (i : Instruction) : Bool :=
  i.opcode == delegateCall

@[simp] theorem sweepFrom_nil (offset : Nat) : sweepFrom offset [] = [] := by
  simp [sweepFrom]

/-- An operand that is cut off ends the sweep. -/
theorem sweepFrom_cons_short {offset : Nat} {opcode : UInt8} {rest : List UInt8}
    (h : rest.length < operandLength opcode) : sweepFrom offset (opcode :: rest) = [] := by
  rw [sweepFrom]
  simp only [List.length_take]
  rw [if_pos (by omega)]

/-- A whole instruction is followed by the sweep of what comes after its operand. -/
theorem sweepFrom_cons {offset : Nat} {opcode : UInt8} {rest : List UInt8}
    (h : operandLength opcode ≤ rest.length) :
    sweepFrom offset (opcode :: rest) =
      ⟨offset, opcode, rest.take (operandLength opcode)⟩ ::
        sweepFrom (offset + 1 + operandLength opcode) (rest.drop (operandLength opcode)) := by
  rw [sweepFrom]
  simp only [List.length_take]
  rw [if_neg (by omega)]

end ProxyCensus.Evm
