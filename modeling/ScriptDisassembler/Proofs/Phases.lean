import ScriptDisassembler.Proofs.Decoding

/-!
The three phases of a disassembly: the words that lead to instructions are entered at the
front, what is reachable from them is explored, and the rest becomes data. The first and
the last phase are loops over the words of the buffer, each with its induction.
-/

namespace ScriptDisassembler

variable {buffer : Buffer}

/-- What every entrypoint word keeps as it is entered holds where the words end that lead
to instructions. -/
theorem findEntrypoints_induction (invariant : Nat → Script → Prop) {limit index : Nat}
    {script found : Script}
    (hstep : ∀ {index target : Nat} {word : Word} {script : Script},
      buffer.wordAt (4 * index) = .ok word → buffer.headerOffset? word.toNat = some target →
        invariant index script → invariant (index + 1) (script.placeEntrypoint index target))
    (hstart : invariant index script)
    (hfound : findEntrypoints buffer limit index script = .ok found) :
    ∃ stop, invariant stop found := by
  induction limit generalizing index script with
  | zero =>
    cases hfound
    exact ⟨index, hstart⟩
  | succ limit ih =>
    simp only [findEntrypoints] at hfound
    split at hfound
    · cases hfound
      exact ⟨index, hstart⟩
    · split at hfound
      · cases hfound
      · next hword =>
        split at hfound
        · cases hfound
          exact ⟨index, hstart⟩
        · next htarget => exact ih (hstep hword htarget hstart) hfound

/-- What is kept both where a slot is passed over and where it is filled holds after the
last of them. -/
theorem fillGaps_induction (invariant : Nat → Script → Prop) {count index : Nat}
    {script filled : Script}
    (hpass : ∀ {index : Nat} {script : Script}, script.isClaimed index = true →
      invariant index script → invariant (index + 1) script)
    (hfill : ∀ {index : Nat} {word : Word} {script : Script},
      script.isClaimed index = false → buffer.wordAt (4 * index) = .ok word →
        invariant index script → invariant (index + 1) (script.place (.data (4 * index) word)))
    (hstart : invariant index script)
    (hfilled : fillGaps buffer count index script = .ok filled) :
    invariant (index + count) filled := by
  induction count generalizing index script with
  | zero =>
    cases hfilled
    exact hstart
  | succ count ih =>
    have hnext : index + (count + 1) = index + 1 + count := by omega
    rw [hnext]
    simp only [fillGaps] at hfilled
    split at hfilled
    · next hclaimed => exact ih (hpass hclaimed hstart) hfilled
    · next hunclaimed =>
      split at hfilled
      · cases hfilled
      · next hword => exact ih (hfill (by simpa using hunclaimed) hword hstart) hfilled

/-- A script comes out of a disassembly only through all three phases. -/
theorem disassemble_ok {bytes : List UInt8} {signatures : Signatures} {script : Script}
    (h : disassemble bytes signatures = .ok script) :
    ∃ (found : Script) (explored : Survey),
      findEntrypoints (Buffer.ofBytes bytes) entrypointLimit 0
        (.blank (Buffer.ofBytes bytes).wordCount) = .ok found ∧
      run (Buffer.ofBytes bytes) signatures (found.entrypoints.map .probe)
        ⟨found, #[.entrypointsFound found.entrypoints.length]⟩ = (explored, .ok ()) ∧
      fillGaps (Buffer.ofBytes bytes) found.wordCount 0 explored.script = .ok script ∧
      (trace bytes signatures).log =
        trailingReport bytes ++ explored.log.push script.summary := by
  simp only [disassemble, trace, Buffer.trace] at h ⊢
  split at h
  · cases h
  · next found hfound =>
    split at h
    · cases h
    · next explored hrun =>
      split at h
      · cases h
      · next hfilled =>
        cases h
        exact ⟨found, explored, hfound, hrun, hfilled, rfl⟩

/-- A value that is read off the result shows that there is one. -/
theorem exists_disassemble {bytes : List UInt8} {signatures : Signatures} {α : Type}
    {read : Script → α} {value : α}
    (h : (disassemble bytes signatures).toOption.map read = some value) :
    ∃ script, disassemble bytes signatures = .ok script ∧ read script = value := by
  cases hresult : disassemble bytes signatures with
  | error fault => simp [hresult, Except.toOption] at h
  | ok script =>
    rw [hresult] at h
    exact ⟨script, rfl, Option.some.inj h⟩

end ScriptDisassembler
