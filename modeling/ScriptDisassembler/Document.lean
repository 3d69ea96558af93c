import ScriptDisassembler.Script
import ScriptDisassembler.Yaml.Printer

/-!
A script as a YAML document. The operands are listed in their instruction and not as
tokens of their own.
-/

namespace ScriptDisassembler

open Yaml (Node)

namespace Document

private def text (value : String) : Node :=
  .scalar value

private def natural (value : Nat) : Node :=
  .scalar (toString value)

private def optional {α : Type} (write : α → Node) : Option α → Node
  | some value => write value
  | none => .scalar "null"

private def naturals (values : List Nat) : Node :=
  .sequence (values.map natural)

private def record (fields : List (String × Node)) : Node :=
  .mapping (fields.map fun (key, value) => (.scalar key, value))

def ofOperand (operand : Operand) : Node :=
  record [
    ("offset", natural operand.offset),
    ("ty", text operand.encoding.id),
    ("raw", naturals (operand.raw.map UInt32.toNat)),
    ("resolved", optional (fun value => text (toString value.toInt)) operand.resolved),
    ("label", optional text operand.label)]

def ofToken? : Token → Option Node
  | .operand _ => none
  | .instruction instruction => record [
      ("kind", text "op"),
      ("offset", natural instruction.offset),
      ("ty", text instruction.opcode.id),
      ("header_param", natural instruction.immediate.toNat),
      ("params", .sequence (instruction.operands.map ofOperand))]
  | .data offset value => record [
      ("kind", text "data"),
      ("offset", natural offset),
      ("value", natural value.toNat)]
  | .entrypoint offset target label => record [
      ("kind", text "entrypoint"),
      ("offset", natural offset),
      ("target", natural target),
      ("label", text label)]
  | .table table => record [
      ("kind", text "pointer_table"),
      ("offset", natural table.offset),
      ("destinations", naturals table.destinations),
      ("labels", .sequence (table.labels.map text))]

def ofScript (script : Script) : Node :=
  record [
    ("entrypoints", naturals script.entrypoints),
    ("branches", naturals script.branches.toList),
    ("subs", naturals script.subroutines.toList),
    ("reentries", naturals script.reentries.toList),
    ("jump_tables", naturals script.jumpTables.toList),
    ("jump_table_dests", naturals script.jumpDestinations.toList),
    ("sub_tables", naturals script.subroutineTables.toList),
    ("sub_table_dests", naturals script.subroutineDestinations.toList),
    ("labels", .mapping (script.labels.entries.map fun (address, name) =>
      (natural address, text name))),
    ("tokens", .sequence (script.entries.filterMap ofToken?))]

end Document

def Script.yaml (script : Script) : String :=
  (Document.ofScript script).document

end ScriptDisassembler
