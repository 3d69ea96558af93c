import ScriptDisassembler.Proofs.LocalStacks

/-!
The mutually recursive algorithm ends from wherever it begins. That it does is no part of its
definition; it follows from what a stack of tasks stands for, since the run of the stack has
a measure. The calls that no task stands for consist of such calls.
-/

namespace ScriptDisassembler

variable {buffer : Buffer} {signatures : Signatures}

namespace Descent

/-- A recursive algorithm does not go on for ever. -/
def Ends {α : Type} (descent : Descent α) : Prop :=
  ∃ result, descent.run = some result

variable {α β : Type} {descent : Descent α} {next : α → Descent β}

theorem ends_pure (value : α) : Ends (pure value : Descent α) :=
  ⟨.ok value, rfl⟩

theorem ends_throw (fault : Fault) : Ends (throw fault : Descent α) :=
  ⟨.error fault, rfl⟩

theorem run_bind (descent : Descent α) (next : α → Descent β) :
    (descent >>= next).run =
      descent.run.bind fun result =>
        match result with
        | .ok value => (next value).run
        | .error fault => some (.error fault) := by
  rw [ExceptT.run_bind]
  cases descent.run with
  | none => rfl
  | some result => cases result <;> rfl

theorem ends_bind (hfirst : Ends descent) (hnext : ∀ value, Ends (next value)) :
    Ends (descent >>= next) := by
  obtain ⟨result, hresult⟩ := hfirst
  unfold Ends
  rw [run_bind, hresult, Option.bind_some]
  cases result with
  | ok value => exact hnext value
  | error fault => exact ⟨.error fault, rfl⟩

theorem ends_of_bind (h : Ends (descent >>= next)) : Ends descent := by
  obtain ⟨result, hresult⟩ := h
  rw [run_bind, Option.bind_eq_some_iff] at hresult
  obtain ⟨first, hfirst, -⟩ := hresult
  exact ⟨first, hfirst⟩

end Descent

/-- What a stack of tasks stands for ends on every script. -/
theorem StandsFor.ends {tasks : List Task} {before : Script → Descent Script}
    (h : StandsFor buffer signatures tasks before) (script : Script) :
    Descent.Ends (before script) :=
  ⟨_, @StandsFor.eq_run buffer signatures tasks ⟨script, #[]⟩ before h⟩

namespace LocalStacks

/-- The calls of the algorithm come to an end from wherever they begin, and on whatever
script. -/
structure Ends (buffer : Buffer) (signatures : Signatures) : Prop where
  drain : ∀ pending script, Descent.Ends (drain buffer signatures pending script)
  scan : ∀ offset pending script, Descent.Ends (scan buffer signatures offset pending script)
  follow : ∀ instruction pending script,
    Descent.Ends (follow buffer signatures instruction pending script)
  visit : ∀ enter value script, Descent.Ends (visit buffer signatures enter value script)
  arguments : ∀ passed script, Descent.Ends (arguments buffer signatures passed script)
  openTable : ∀ kind value script,
    Descent.Ends (openTable buffer signatures kind value script)
  entries : ∀ kind table found script,
    Descent.Ends (entries buffer signatures kind table found script)

theorem ends_drain (pending : List Nat) (script : Script) :
    Descent.Ends (drain buffer signatures pending script) :=
  Descent.ends_of_bind ((StandsFor.probes pending .done).ends script)

theorem ends_scan (offset : Nat) (pending : List Nat) (script : Script) :
    Descent.Ends (scan buffer signatures offset pending script) :=
  Descent.ends_of_bind (StandsFor.ends (.scan .done) script)

theorem ends_arguments (passed : List (Operand × Parameter)) (script : Script) :
    Descent.Ends (arguments buffer signatures passed script) := by
  -- The arguments of any call will do, since no more than the pending ones are looked at.
  have hstands : StandsFor buffer signatures
      [.arguments ⟨0, .call, 0, []⟩ ⟨"", []⟩ passed] _ := .arguments .done
  exact Descent.ends_of_bind (hstands.ends script)

theorem ends_entries (kind : TableKind) (table : Nat) (found : List Nat) (script : Script) :
    Descent.Ends (entries buffer signatures kind table found script) :=
  Descent.ends_of_bind (StandsFor.ends (.entries .done) script)

theorem ends_visit (enter : Script → Nat → Script) (value : Int32) (script : Script) :
    Descent.Ends (visit buffer signatures enter value script) := by
  rw [visit]
  split
  · exact Descent.ends_pure _
  · exact ends_drain _ _

theorem ends_openTable (kind : TableKind) (value : Int32) (script : Script) :
    Descent.Ends (openTable buffer signatures kind value script) := by
  rw [openTable]
  split
  · exact Descent.ends_pure _
  · split
    · exact Descent.ends_pure _
    · exact ends_entries _ _ _ _

theorem ends_follow (instruction : Instruction) (pending : List Nat) (script : Script) :
    Descent.Ends (follow buffer signatures instruction pending script) := by
  rw [follow]
  split
  · exact Descent.ends_pure _
  · exact ends_scan _ _ _
  · exact ends_scan _ _ _
  · split
    · exact Descent.ends_throw _
    · exact Descent.ends_bind (ends_arguments _ _) fun _ => ends_scan _ _ _
  · exact ends_scan _ _ _
  · exact Descent.ends_pure _
  · exact Descent.ends_pure _
  · exact Descent.ends_bind (ends_visit _ _ _) fun _ => ends_scan _ _ _
  · exact Descent.ends_bind (ends_visit _ _ _) fun _ => ends_scan _ _ _
  · exact Descent.ends_bind (ends_openTable _ _ _) fun _ => Descent.ends_pure _
  · exact Descent.ends_bind (ends_openTable _ _ _) fun _ => ends_scan _ _ _

theorem ends (buffer : Buffer) (signatures : Signatures) : Ends buffer signatures where
  drain := ends_drain
  scan := ends_scan
  follow := ends_follow
  visit := ends_visit
  arguments := ends_arguments
  openTable := ends_openTable
  entries := ends_entries

end LocalStacks

end ScriptDisassembler
