import ScriptDisassembler.Proofs.Reachable

/-!
The destinations of a table are what its words say. The word of an entry is a displacement
from the beginning of the table, so the table and the place of the entry determine the
destination, whichever way the table was come to.
-/

namespace ScriptDisassembler

variable {buffer : Buffer} {signatures : Signatures}

namespace Buffer

/-- The entry at a place of a table leads to an address. -/
def Leads (buffer : Buffer) (table place destination : Nat) : Prop :=
  ∃ word, buffer.wordAt (table + 4 * place) = .ok word ∧
    (destination : Int) = table + 4 * word.signed.toInt

theorem Leads.unique {table place first second : Nat} (hfirst : buffer.Leads table place first)
    (hsecond : buffer.Leads table place second) : first = second := by
  obtain ⟨word, hword, hlead⟩ := hfirst
  obtain ⟨other, hother, hled⟩ := hsecond
  rw [hword, Except.ok.injEq] at hother
  subst hother
  omega

end Buffer

theorem leads_of_nextDestination? {script : Script} {table destination : Nat} {found : List Nat}
    (h : nextDestination? buffer script table found = .ok (some destination)) :
    buffer.Leads table found.length destination := by
  obtain ⟨word, hword, hdestination⟩ := nextDestination?_eq_some h
  have hoffset := Buffer.wordOffset?_of_headerOffset? hdestination
  exact ⟨word, hword, (Buffer.wordOffset?_eq_some.mp hoffset).1⟩

/-- A list with one more element has it at the place after the others. -/
theorem getElem?_concat_cases {list : List Nat} {last place other : Nat}
    (h : (list ++ [last])[place]? = some other) :
    place < list.length ∧ list[place]? = some other ∨ place = list.length ∧ other = last := by
  rcases Nat.lt_or_ge place list.length with hlt | hge
  · rw [List.getElem?_append_left hlt] at h
    exact .inl ⟨hlt, h⟩
  · rw [List.getElem?_append_right hge] at h
    obtain ⟨hzero, heq⟩ := List.getElem?_eq_some_iff.mp h
    rw [List.length_singleton] at hzero
    exact .inr ⟨by omega, by simpa using heq.symm⟩

/-- Each destination of a table is that of the entry at its place. -/
def Displaced (buffer : Buffer) (table : Nat) (destinations : List Nat) : Prop :=
  ∀ {place destination : Nat}, destinations[place]? = some destination →
    buffer.Leads table place destination

theorem Displaced.concat {table destination : Nat} {destinations : List Nat}
    (h : Displaced buffer table destinations)
    (hnext : buffer.Leads table destinations.length destination) :
    Displaced buffer table (destinations ++ [destination]) := by
  intro place other hother
  rcases getElem?_concat_cases hother with ⟨-, hold⟩ | ⟨rfl, rfl⟩
  · exact h hold
  · exact hnext

/-- The destinations that have been found are those of the entries so far. -/
def Task.Displaced (buffer : Buffer) : Task → Prop
  | .entries _ table found => ScriptDisassembler.Displaced buffer table found
  | .probe _ | .scan _ | .arguments _ _ _ => True

theorem Task.Leaves.displaced {script : Script} {task more : Task}
    (h : task.Leaves buffer script more) (hdisplaced : task.Displaced buffer) :
    more.Displaced buffer := by
  cases h with
  | scan | arguments | argument | destination => trivial
  | entries hentry => exact hdisplaced.concat (leads_of_nextDestination? hentry)
  | followed hdecode hleaves =>
    cases hleaves with
    | onward | beside | target | arguments => trivial
    | table htable =>
      intro place destination hplace
      cases hplace

theorem Exploring.displaced {tasks : List Task} {survey : Survey}
    (h : Exploring buffer signatures tasks survey) : ∀ task ∈ tasks, task.Displaced buffer :=
  h.tasks_induction (Task.Displaced buffer) (fun _ => trivial) Task.Leaves.displaced

end ScriptDisassembler
