import Mathlib
import ScriptDisassembler.Proofs.Moments
import ScriptDisassembler.Proofs.Retention

/-!
The parts of a disassembly, each called on a script by itself. A probe, the arguments of a call
and the reading of a table are done with before they return; a scan hands the targets of the
jump with which it ends back to whoever called for it. Whatever is called, on whatever script of
a disassembly, and whether it returns or fails: the script only grows.
-/

namespace ScriptDisassembler

variable {buffer : Buffer} {signatures : Signatures}

/-- A run finishes the tasks on top before it comes to those below them. -/
theorem run_append (tasks rest : List Task) (survey : Survey) :
    run buffer signatures (tasks ++ rest) survey =
      match run buffer signatures tasks survey with
      | (after, .error fault) => (after, .error fault)
      | (after, .ok ()) => run buffer signatures rest after := by
  fun_induction run buffer signatures tasks survey with
  | case1 survey => rfl
  | case2 survey task tasks after fault hperform => exact run_cons_error _ hperform
  | case3 survey task tasks after more hperform ih =>
    rw [List.cons_append, run_cons_ok _ hperform, ← List.append_assoc, ih]

/-- Performs tasks from the top of the stack until none but probes are left. These belong to the
call that the tasks are a part of. -/
def runWork (buffer : Buffer) (signatures : Signatures) (tasks : List Task) (survey : Survey) :
    Outcome :=
  match tasks with
  | [] => (survey, .ok [])
  | task :: rest =>
    if (task :: rest).all Task.isProbe then
      (survey, .ok (task :: rest))
    else
      match _h : task.perform buffer signatures survey with
      | (after, .error fault) => (after, .error fault)
      | (after, .ok more) => runWork buffer signatures (more ++ rest) after
termination_by (survey.script.unclaimed, stackWeight buffer tasks)
decreasing_by exact Task.perform_decreases _h rest

/-- A run does the work first and goes on with the probes that are handed back. -/
theorem run_append_runWork (tasks rest : List Task) (survey : Survey) :
    run buffer signatures (tasks ++ rest) survey =
      match runWork buffer signatures tasks survey with
      | (after, .error fault) => (after, .error fault)
      | (after, .ok probes) => run buffer signatures (probes ++ rest) after := by
  fun_induction runWork buffer signatures tasks survey with
  | case1 survey => rfl
  | case2 survey task tasks hprobes => rfl
  | case3 survey task tasks hwork after fault hperform => exact run_cons_error _ hperform
  | case4 survey task tasks hwork after more hperform ih =>
    rw [List.cons_append, run_cons_ok _ hperform, ← List.append_assoc, ih]

theorem runWork_grows (tasks : List Task) (survey : Survey) :
    survey.script.Grows (runWork buffer signatures tasks survey).1.script := by
  fun_induction runWork buffer signatures tasks survey with
  | case1 | case2 => exact .refl _
  | case3 survey task tasks hwork after fault hperform =>
    exact (Task.fails_of_perform hperform).grows
  | case4 survey task tasks hwork after more hperform ih =>
    exact (Task.performs_of_perform hperform).grows.trans ih

/-- Does all that a part has left when it has begun. -/
def Outcome.finish (buffer : Buffer) (signatures : Signatures) :
    Outcome → Survey × Except Fault Unit
  | (survey, .error fault) => (survey, .error fault)
  | (survey, .ok tasks) => run buffer signatures tasks survey

theorem Outcome.finish_grows {script : Script} {outcome : Outcome}
    (h : script.Grows outcome.1.script) :
    script.Grows (outcome.finish buffer signatures).1.script := by
  obtain ⟨survey, _ | tasks⟩ := outcome
  · exact h
  · exact h.trans (run_grows buffer signatures tasks survey)

/-- Compares a call with its method and follows its arguments. The scan that goes on behind the
call is not a part of this. -/
def passArguments (buffer : Buffer) (signatures : Signatures) (call : Instruction)
    (survey : Survey) : Survey × Except Fault Unit :=
  let (survey, tasks) := followCall signatures call survey
  Outcome.finish buffer signatures (survey, tasks.map (·.take 1))

/-- Reads a table from its beginning to its end, unless that was begun before. -/
def readTable (buffer : Buffer) (signatures : Signatures) (kind : TableKind) (offset : Nat)
    (value : Int32) (survey : Survey) : Survey × Except Fault Unit :=
  (openTable buffer kind offset value [] survey).finish buffer signatures

/-- A call that fits its method is followed by passing its arguments and scanning on. -/
theorem run_followCall {call : Instruction} {survey after : Survey} {tasks : List Task}
    (h : followCall signatures call survey = (after, .ok tasks)) (rest : List Task) :
    run buffer signatures (tasks ++ rest) after =
      match passArguments buffer signatures call survey with
      | (passed, .error fault) => (passed, .error fault)
      | (passed, .ok ()) => run buffer signatures (.scan call.next :: rest) passed := by
  simp only [passArguments, followCall] at h ⊢
  split at h
  · cases h
  · split at h
    · cases h
    · next hmethod hlength =>
      cases h
      simp only [hlength, ↓reduceIte]
      exact run_append [_] (.scan call.next :: rest) _

/-- An instruction that addresses a table is followed by reading the table and going on. -/
theorem run_openTable {kind : TableKind} {offset : Nat} {value : Int32} {onward tasks : List Task}
    {survey after : Survey}
    (h : openTable buffer kind offset value onward survey = (after, .ok tasks))
    (rest : List Task) :
    run buffer signatures (tasks ++ rest) after =
      match readTable buffer signatures kind offset value survey with
      | (read, .error fault) => (read, .error fault)
      | (read, .ok ()) => run buffer signatures (onward ++ rest) read := by
  simp only [readTable, openTable] at h ⊢
  cases htable : buffer.wordOffset? value.toInt with
  | none =>
    simp only [followEdge_outside htable] at h ⊢
    cases h
    exact run_append [] (onward ++ rest) _
  | some table =>
    simp only [followEdge_inside htable] at h ⊢
    split at h
    · next hmem =>
      cases h
      simp only [hmem, ↓reduceIte]
      exact run_append [] (onward ++ rest) _
    · next hmem =>
      cases h
      simp only [hmem, ↓reduceIte]
      exact run_append [_] (onward ++ rest) _

theorem passArguments_grows (call : Instruction) (survey : Survey) :
    survey.script.Grows (passArguments buffer signatures call survey).1.script := by
  simp only [passArguments]
  refine Outcome.finish_grows ?_
  simp only [script_followCall]
  exact .refl _

theorem readTable_grows (kind : TableKind) (offset : Nat) (value : Int32) (survey : Survey) :
    survey.script.Grows (readTable buffer signatures kind offset value survey).1.script := by
  simp only [readTable, openTable]
  refine Outcome.finish_grows ?_
  cases htable : buffer.wordOffset? value.toInt with
  | none =>
    simp only [followEdge_outside htable]
    exact .refl _
  | some table =>
    simp only [followEdge_inside htable]
    split
    · exact .refl _
    · exact .insertTable _ _ _

theorem findEntrypoints_grows {limit index : Nat} {script found : Script}
    (hfound : findEntrypoints buffer limit index script = .ok found) : script.Grows found := by
  have hinvariant := findEntrypoints_induction (fun _ found => script.Grows found) ?_ (.refl script)
    hfound
  · obtain ⟨-, hgrows⟩ := hinvariant
    exact hgrows
  · intro index target word found hword htarget hgrows
    exact hgrows.trans (.placeEntrypoint found index target)

/-- A script on the way has a slot for every word. -/
theorem Script.Reachable.wordCount_eq {script : Script} (h : script.Reachable buffer signatures) :
    script.wordCount = buffer.wordCount := by
  have hplaced : Placed fun script => script.wordCount = buffer.wordCount := by
    constructor
    · intro script other hcount htokens hslots
      rw [← hcount, wordCount, wordCount, hslots]
    · intro script token hcount
      rw [wordCount_place, hcount]
  exact hplaced.reachable Array.size_replicate h

/-- Every part of a disassembly that is called on the script makes it grow, whatever comes of
the call. The parts are those of the run, which does each of them before anything else that is
still to be done. -/
structure Script.OnlyGrows (buffer : Buffer) (signatures : Signatures) (script : Script) :
    Prop where
  entrypoints : ∀ limit index, ∃ found,
    findEntrypoints buffer limit index script = .ok found ∧ script.Grows found
  probe : ∀ start log,
    script.Grows (run buffer signatures [.probe start] ⟨script, log⟩).1.script
  scan : ∀ offset log,
    script.Grows (runWork buffer signatures [.scan offset] ⟨script, log⟩).1.script
  arguments : ∀ call log,
    script.Grows (passArguments buffer signatures call ⟨script, log⟩).1.script
  table : ∀ kind offset value log,
    script.Grows (readTable buffer signatures kind offset value ⟨script, log⟩).1.script
  gaps : ∃ filled, fillGaps buffer script.wordCount 0 script = .ok filled ∧ script.Grows filled
  run_scan : ∀ offset log rest,
    run buffer signatures (.scan offset :: rest) ⟨script, log⟩ =
      match runWork buffer signatures [.scan offset] ⟨script, log⟩ with
      | (after, .error fault) => (after, .error fault)
      | (after, .ok probes) => run buffer signatures (probes ++ rest) after
  run_arguments : ∀ {call log after tasks},
    followCall signatures call ⟨script, log⟩ = (after, .ok tasks) → ∀ rest,
      run buffer signatures (tasks ++ rest) after =
        match passArguments buffer signatures call ⟨script, log⟩ with
        | (passed, .error fault) => (passed, .error fault)
        | (passed, .ok ()) => run buffer signatures (.scan call.next :: rest) passed
  run_table : ∀ {kind offset value onward log after tasks},
    openTable buffer kind offset value onward ⟨script, log⟩ = (after, .ok tasks) → ∀ rest,
      run buffer signatures (tasks ++ rest) after =
        match readTable buffer signatures kind offset value ⟨script, log⟩ with
        | (read, .error fault) => (read, .error fault)
        | (read, .ok ()) => run buffer signatures (onward ++ rest) read

theorem only_grows {script : Script} (h : script.Reachable buffer signatures) :
    script.OnlyGrows buffer signatures := by
  constructor
  case entrypoints =>
    intro limit index
    obtain ⟨found, hfound⟩ := exists_findEntrypoints buffer limit index script
    exact ⟨found, hfound, findEntrypoints_grows hfound⟩
  case probe =>
    intro start log
    exact run_grows buffer signatures [.probe start] ⟨script, log⟩
  case scan =>
    intro offset log
    exact runWork_grows [.scan offset] ⟨script, log⟩
  case arguments =>
    intro call log
    exact passArguments_grows call ⟨script, log⟩
  case table =>
    intro kind offset value log
    exact readTable_grows kind offset value ⟨script, log⟩
  case gaps =>
    have hfits : 0 + script.wordCount ≤ buffer.wordCount := by
      rw [Nat.zero_add, h.wordCount_eq]
    obtain ⟨filled, hfilled⟩ := exists_fillGaps hfits script
    exact ⟨filled, hfilled, fillGaps_grows hfilled⟩
  case run_scan =>
    intro offset log rest
    exact run_append_runWork [.scan offset] rest ⟨script, log⟩
  case run_arguments =>
    intro call log after tasks hcall rest
    exact run_followCall hcall rest
  case run_table =>
    intro kind offset value onward log after tasks htable rest
    exact run_openTable htable rest

/-- A jump to a call of an unknown method. -/
def lostCall : List UInt8 :=
  [4, 0, 0, 0, 0x40, 1, 0, 0, 2, 0, 0, 0x09, 0x38, 0, 1, 0]

theorem only_grows_on_lostCall :
    ∃ script, script.Reachable (.ofBytes lostCall) .empty ∧
      (script.tokens.size, script.branches.toList, script.entrypoints) = (1, [], [4]) ∧
      (∃ after, run (.ofBytes lostCall) .empty [.probe 4] ⟨script, #[]⟩ =
          (after, .error (.unknownMethod 12 1)) ∧
        (after.script.tokens.size, after.script.branches.toList) = (4, [4, 12])) ∧
      script.OnlyGrows (.ofBytes lostCall) .empty := by
  have hruns : (findEntrypoints (.ofBytes lostCall) entrypointLimit 0
      (.blank (Buffer.ofBytes lostCall).wordCount)).toOption.map (fun script =>
        let (after, result) := run (.ofBytes lostCall) .empty [.probe 4] ⟨script, #[]⟩
        ((script.tokens.size, script.branches.toList, script.entrypoints), result,
          after.script.tokens.size, after.script.branches.toList)) =
      some ((1, [], [4]), .error (.unknownMethod 12 1), 4, [4, 12]) := by
    cbv
  obtain ⟨script, hfound⟩ := exists_findEntrypoints (.ofBytes lostCall) entrypointLimit 0
    (.blank (Buffer.ofBytes lostCall).wordCount)
  have hreachable : script.Reachable (.ofBytes lostCall) .empty :=
    .entering (Nat.le_refl _) hfound
  rw [hfound] at hruns
  simp only [Except.toOption, Option.map_some, Option.some.injEq, Prod.mk.injEq] at hruns
  obtain ⟨hstart, hresult, hend⟩ := hruns
  refine ⟨script, hreachable, by simpa only [Prod.mk.injEq] using hstart,
    ⟨_, Prod.ext rfl hresult, by simpa only [Prod.mk.injEq] using hend⟩, only_grows hreachable⟩

end ScriptDisassembler
