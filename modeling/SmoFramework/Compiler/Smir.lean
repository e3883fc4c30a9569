import SmoFramework.Library.AssocMap

/-! The intermediate representation of contracts (`compiler/smir`). -/
namespace SmoFramework.Compiler
open Library

inductive SmirOpcode
  | nop | call | load | store | cond | seq | parallel | bindInput | bindOutput | literal | move | assert
  | debug
  deriving DecidableEq, Repr

inductive SmirOperandType
  | none | literal | identifier | temp
  deriving DecidableEq, Repr

structure SmirOperand where
  type : SmirOperandType := .none
  value : String := ""
  deriving DecidableEq

structure SmirInstruction where
  opcode : SmirOpcode := .nop
  dst : SmirOperand := {}
  lhs : SmirOperand := {}
  rhs : SmirOperand := {}
  annotation : String := ""
  deriving DecidableEq

structure SmirBasicBlock where
  label : String := ""
  instructions : List SmirInstruction := []

structure SmirModule where
  name : String := ""
  blocks : List SmirBasicBlock := []
  metadata : AssocMap String String := AssocMap.empty

end SmoFramework.Compiler
