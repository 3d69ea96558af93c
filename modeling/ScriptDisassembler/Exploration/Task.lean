import ScriptDisassembler.Claim
import ScriptDisassembler.Fault
import ScriptDisassembler.Signature

/-!
Following the control flow of a script. The work that is left is a stack of tasks: a
transfer of control that ends a scan replaces it by probes of its targets, and a call for
a subroutine puts a probe of it in front of the rest of the scan. So everything reachable
from a subroutine is found before the scan goes on, which matters because a table ends at
the first slot that something else has claimed.
-/

namespace ScriptDisassembler

inductive TableKind where
  | jump
  | subroutine
deriving DecidableEq

namespace Script

def insertBranch (script : Script) (address : Nat) : Script :=
  { script with branches := script.branches.insert address }

def insertSubroutine (script : Script) (address : Nat) : Script :=
  { script with subroutines := script.subroutines.insert address }

def insertReentry (script : Script) (address : Nat) : Script :=
  { script with reentries := script.reentries.insert address }

/-- The addresses of the tables of a kind. -/
def tables (script : Script) : TableKind → AddressSet
  | .jump => script.jumpTables
  | .subroutine => script.subroutineTables

def insertTable (script : Script) (kind : TableKind) (table : Nat) : Script :=
  match kind with
  | .jump => { script with jumpTables := script.jumpTables.insert table }
  | .subroutine => { script with subroutineTables := script.subroutineTables.insert table }

/-- A destination of a subroutine table is also a subroutine. -/
def insertDestination (script : Script) (kind : TableKind) (address : Nat) : Script :=
  match kind with
  | .jump => { script with jumpDestinations := script.jumpDestinations.insert address }
  | .subroutine =>
    { script with
      subroutineDestinations := script.subroutineDestinations.insert address
      subroutines := script.subroutines.insert address }

/-- Names the destinations of a table by their places in it. -/
def labelDestinations (table : Nat) : (place : Nat) → List Nat → Labels → List String × Labels
  | _, [], labels => ([], labels)
  | place, destination :: rest, labels =>
    let (name, labels) := labels.add destination fun _ => (Label.tableEntry table place).text
    let (names, labels) := labelDestinations table (place + 1) rest labels
    (name :: names, labels)

/-- Adds the token of a table and names its destinations. -/
def placeTable (script : Script) (table : Nat) (destinations : List Nat) : Script :=
  let (names, labels) := labelDestinations table 0 destinations script.labels
  { script with labels }.place (.table ⟨table, destinations, names⟩)

end Script

/-- What is known and what has been reported. -/
structure Survey where
  script : Script
  log : Array Event
deriving DecidableEq

namespace Survey

def note (survey : Survey) (event : Event) : Survey :=
  { survey with log := survey.log.push event }

def update (survey : Survey) (change : Script → Script) : Survey :=
  { survey with script := change survey.script }

end Survey

inductive Task where
  /-- Scan from `start`, unless a scan has begun there before. -/
  | probe (start : Nat)
  /-- Decode one instruction after the other from `offset` on. -/
  | scan (offset : Nat)
  /-- Follow the arguments of a call that are code addresses. -/
  | arguments (call : Instruction) (method : Method) (pending : List (Operand × Parameter))
  /-- Test the entry after those found so far, and enter the table when there is no more. -/
  | entries (kind : TableKind) (table : Nat) (found : List Nat)
deriving DecidableEq

/-- What one task leaves behind: more tasks, or the fault for which the work is given up. -/
abbrev Outcome := Survey × Except Fault (List Task)

/-- The target of a branch, or `none` and a report that there is no word there. -/
def followEdge (buffer : Buffer) (edge : Edge) (offset : Nat) (value : Int32)
    (survey : Survey) : Survey × Option Nat :=
  match buffer.wordOffset? value.toInt with
  | some target => (survey, some target)
  | none => (survey.note (.outside edge offset value), none)

/-- Begins a table, unless one of the kind was begun there before, and goes on with
`rest`. -/
def openTable (buffer : Buffer) (kind : TableKind) (offset : Nat) (value : Int32)
    (rest : List Task) (survey : Survey) : Outcome :=
  match followEdge buffer .table offset value survey with
  | (survey, none) => (survey, .ok rest)
  | (survey, some table) =>
    if table ∈ survey.script.tables kind then
      (survey, .ok rest)
    else
      (survey.update (·.insertTable kind table), .ok (.entries kind table [] :: rest))

/-- Probes a target for which `enter` puts down the role, and goes on with `rest`. -/
def visit (buffer : Buffer) (edge : Edge) (offset : Nat) (value : Int32)
    (enter : Script → Nat → Script) (rest : List Task) (survey : Survey) : Outcome :=
  match followEdge buffer edge offset value survey with
  | (survey, none) => (survey, .ok rest)
  | (survey, some target) => (survey.update (enter · target), .ok (.probe target :: rest))

/-- Hands the value through which an instruction branches to `act`. If it is not known
before the script runs, the scan goes on. -/
def followBranch (instruction : Instruction) (act : Int32 → Survey → Outcome)
    (survey : Survey) : Outcome :=
  match instruction.branchValue? with
  | some value => act value survey
  | none =>
    (survey.note (.unknownBranch instruction.opcode instruction.offset),
      .ok [.scan instruction.next])

/-- A call must fit the signature of its method; then its arguments are followed. -/
def followCall (signatures : Signatures) (call : Instruction) (survey : Survey) : Outcome :=
  match signatures.method? call.immediate.toNat with
  | none => (survey, .error (.unknownMethod call.offset call.immediate))
  | some method =>
    if method.parameters.length ≠ call.operands.length then
      (survey, .error (.argumentCount call.offset call.immediate method.parameters.length
        call.operands.length))
    else
      (survey, .ok [.arguments call method (call.operands.zip method.parameters),
        .scan call.next])

/-- Follows the branches of an instruction that has been entered. Where control can go two
ways, the way on is explored first. -/
def follow (buffer : Buffer) (signatures : Signatures) (instruction : Instruction)
    (survey : Survey) : Outcome :=
  let offset := instruction.offset
  let edge := Edge.branch instruction.opcode
  let onward : List Task := [.scan instruction.next]
  match instruction.opcode.flow with
  | .terminal => (survey, .ok [])
  | .plain | .forkReenter => (survey, .ok onward)
  | .call => followCall signatures instruction survey
  | .jump =>
    followBranch instruction (fun value => visit buffer edge offset value (fun s _ => s) [])
      survey
  | .conditional =>
    followBranch instruction (fun value survey =>
      match followEdge buffer edge offset value survey with
      | (survey, target) =>
        (survey, .ok (.probe instruction.next :: target.toList.map Task.probe))) survey
  | .gosub =>
    followBranch instruction (fun value =>
      visit buffer edge offset value Script.insertSubroutine onward) survey
  | .fork =>
    followBranch instruction (fun value =>
      visit buffer edge offset value Script.insertReentry onward) survey
  | .jumpTable =>
    followBranch instruction (fun value => openTable buffer .jump offset value []) survey
  | .gosubTable =>
    followBranch instruction (fun value =>
      openTable buffer .subroutine offset value onward) survey

/-- Decodes the instruction at `offset`, enters it and follows it. -/
def scanStep (buffer : Buffer) (signatures : Signatures) (offset : Nat) (survey : Survey) :
    Outcome :=
  if buffer.length ≤ offset then
    (survey, .ok [])
  else
    match decode buffer offset with
    | .error (.read fault) => (survey, .error (.read fault))
    | .error (.undecodable reason) => (survey.note (.undecodable offset reason), .ok [])
    | .ok instruction =>
      match survey.script.claimInstruction instruction with
      | .error refusal => (survey.note refusal, .ok [])
      | .ok script => follow buffer signatures instruction { survey with script }

/-- Follows the first of the pending arguments of a call. -/
def argumentStep (buffer : Buffer) (call : Instruction) (method : Method)
    (pending : List (Operand × Parameter)) (survey : Survey) : Outcome :=
  match pending with
  | [] => (survey, .ok [])
  | (operand, parameter) :: pending =>
    let rest : List Task := [.arguments call method pending]
    match parameter.role, operand.resolved with
    | .none, _ => (survey, .ok rest)
    | _, none =>
      (survey.note (.unknownArgument call.immediate method.name call.offset parameter.name),
        .ok rest)
    | role, some value =>
      visit buffer (.argument method.name) call.offset value
        (if role = .gosub then Script.insertSubroutine else Script.insertReentry) rest survey

/-- Enters a table that has no more entries. If something else owns its first word by now,
the table is kept as a token that owns nothing. -/
def closeTable (table : Nat) (found : List Nat) (survey : Survey) : Survey :=
  let entered := (survey.note (.tableDecoded table found.length)).update
    (·.placeTable table found)
  if survey.script.isFree (table / 4) then
    entered
  else
    entered.note (.tableOverlap table)

/-- Tests the next entry of a table. It is a displacement in words from the start of the
table, and the table ends before the first entry that is outside the script, is claimed
or does not lead to an instruction. -/
def entryStep (buffer : Buffer) (kind : TableKind) (table : Nat) (found : List Nat)
    (survey : Survey) : Outcome :=
  let entry := table + 4 * found.length
  if buffer.length ≤ entry ∨ survey.script.isClaimed (entry / 4) then
    (closeTable table found survey, .ok [])
  else
    match buffer.wordAt entry with
    | .error fault => (survey, .error (.read fault))
    | .ok word =>
      match buffer.headerOffset? (table + 4 * word.signed.toInt) with
      | none => (closeTable table found survey, .ok [])
      | some destination =>
        (survey.update (·.insertDestination kind destination),
          .ok [.probe destination, .entries kind table (found ++ [destination])])

def probeStep (start : Nat) (survey : Survey) : Outcome :=
  if start ∈ survey.script.branches then
    (survey, .ok [])
  else
    ((survey.update (·.insertBranch start)).note (.probing start), .ok [.scan start])

def Task.perform (buffer : Buffer) (signatures : Signatures) : Task → Survey → Outcome
  | .probe start => probeStep start
  | .scan offset => scanStep buffer signatures offset
  | .arguments call method pending => argumentStep buffer call method pending
  | .entries kind table found => entryStep buffer kind table found

end ScriptDisassembler
