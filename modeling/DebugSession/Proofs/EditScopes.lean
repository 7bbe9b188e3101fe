import DebugSession.Proofs.Table
import Mathlib.Data.List.Perm.Basic

namespace DebugSession

namespace Slots

variable {v : List Thread} {t : Thread} {i : Nat}

def lastIdx? (v : List Thread) (t : Thread) : Option Nat :=
  (v.reverse.idxOf? t).map fun i => v.length - 1 - i

def swapRemove (v : List Thread) (i : Nat) : List Thread :=
  match v.getLast? with
  | none => v
  | some last => (v.set i last).dropLast

def release (v : List Thread) (t : Thread) : List Thread :=
  match lastIdx? v t with
  | none => v
  | some i => swapRemove v i

theorem getElem?_lastIdx? (hi : lastIdx? v t = some i) : v[i]? = some t := by
  obtain ⟨j, hj, rfl⟩ := Option.map_eq_some_iff.mp hi
  obtain ⟨hlt, heq, -⟩ := List.findIdx?_eq_some_iff_getElem.mp hj
  have hlen : j < v.length := by simpa using hlt
  rw [← List.getElem?_reverse hlen, List.getElem?_eq_getElem hlt]
  exact congrArg some (eq_of_beq heq)

theorem lastIdx?_eq_none : lastIdx? v t = none ↔ t ∉ v := by
  have hmem : (∀ x ∈ v, x ≠ t) ↔ t ∉ v := ⟨fun h ht => h t ht rfl, fun h x hx he => h (he ▸ hx)⟩
  simpa [lastIdx?, List.idxOf?, List.findIdx?_eq_none_iff] using hmem

theorem swapRemove_perm (hi : v[i]? = some t) : (swapRemove v i).Perm (v.erase t) := by
  obtain ⟨hlt, rfl⟩ := List.getElem?_eq_some_iff.mp hi
  have hne : v ≠ [] := List.ne_nil_of_length_pos (Nat.zero_lt_of_lt hlt)
  obtain ⟨last, hlast⟩ := Option.isSome_iff_exists.mp (List.getLast?_isSome.mpr hne)
  -- Also when the entry that goes is the last one, the overwritten vector ends in the last entry.
  have hend : (v.set i last).getLast? = some last := by grind
  have hset : (v.set i last).dropLast ++ [last] = v.set i last :=
    List.dropLast_append_getLast? last hend
  have hdrop : (v.set i last).dropLast.Perm (v.eraseIdx i) := by
    refine List.Perm.cons_inv (a := last) ((List.perm_append_singleton _ _).symm.trans ?_)
    rw [hset]
    exact List.set_perm_cons_eraseIdx hlt last
  have herase : (v.eraseIdx i).Perm (v.erase v[i]) :=
    List.Perm.cons_inv (a := v[i])
      ((List.getElem_cons_eraseIdx_perm hlt).trans (List.perm_cons_erase (List.getElem_mem hlt)))
  simpa only [swapRemove, hlast] using hdrop.trans herase

theorem release_perm (v : List Thread) (t : Thread) : (release v t).Perm (v.erase t) := by
  cases hi : lastIdx? v t with
  | none =>
      rw [List.erase_of_not_mem (lastIdx?_eq_none.mp hi)]
      simp only [release, hi, List.Perm.refl]
  | some i => simpa only [release, hi] using swapRemove_perm (getElem?_lastIdx? hi)

end Slots

structure EditScope where
  number : Nat
  owner : Thread
  deriving DecidableEq, Repr, Inhabited

/-- A table with the scopes that are open on it. `slots` are the entries of the table as a vector
that grows at its end. -/
structure EditScopes where
  table : BindingTable := {}
  slots : List Thread := []
  opened : List EditScope := []
  issued : Nat := 0
  deriving Repr, Inhabited

namespace EditScopes

inductive Step
  | begin (thread : Thread)
  | close (thread : Thread) (scope : EditScope)
  | insert (record : BindingRecord)
  | remove (id : BreakEventId)
  | setStatus (handle : BindingHandle) (status : BindingStatus) (message : Option String)

/-- A scope that is not open, or no longer, cannot be closed. -/
def step (x : EditScopes) : Step → EditScopes
  | .begin thread =>
    { table := x.table.beginEdit thread, slots := x.slots ++ [thread],
      opened := ⟨x.issued, thread⟩ :: x.opened, issued := x.issued + 1 }
  | .close _ scope =>
    if scope ∈ x.opened then
      { x with
        table := x.table.endEdit scope.owner, slots := Slots.release x.slots scope.owner,
        opened := x.opened.erase scope }
    else x
  | .insert record => { x with table := x.table.insert record }
  | .remove id => { x with table := x.table.remove id }
  | .setStatus handle status message =>
    { x with table := x.table.setStatus handle status message }

def run (x : EditScopes) (steps : List Step) : EditScopes := steps.foldl step x

def Step.owner? : Step → Option Thread
  | .begin thread => some thread
  | .close _ scope => some scope.owner
  | .insert _ | .remove _ | .setStatus .. => none

/-- Entries stand for the owners of the open scopes, one for each scope. -/
structure Counted (x : EditScopes) : Prop where
  table : x.table.openEdits.Perm (x.opened.map EditScope.owner)
  slots : x.slots.Perm (x.opened.map EditScope.owner)
  nodup : x.opened.Nodup
  fresh : ∀ k ∈ x.opened, k.number < x.issued

variable {x : EditScopes}

theorem perm_close {entries : List Thread} {opened : List EditScope} {k : EditScope}
    (hentries : entries.Perm (opened.map EditScope.owner)) (hk : k ∈ opened) :
    (entries.erase k.owner).Perm ((opened.erase k).map EditScope.owner) := by
  have howners : (opened.map EditScope.owner).Perm
      (k.owner :: (opened.erase k).map EditScope.owner) :=
    (List.perm_cons_erase hk).map EditScope.owner
  simpa using (hentries.trans howners).erase k.owner

theorem Counted.of_openEdits (hx : x.Counted) {table : BindingTable}
    (htable : table.openEdits = x.table.openEdits) : Counted { x with table := table } :=
  { hx with table := htable ▸ hx.table }

theorem Counted.step (hx : x.Counted) (a : Step) : (x.step a).Counted := by
  cases a with
  | begin thread =>
      have hslots : (x.slots ++ [thread]).Perm (thread :: x.opened.map EditScope.owner) :=
        (List.perm_append_singleton thread x.slots).trans (hx.slots.cons thread)
      have hnew : (⟨x.issued, thread⟩ : EditScope) ∉ x.opened := fun h =>
        Nat.lt_irrefl _ (hx.fresh _ h)
      refine ⟨hx.table.cons thread, hslots, List.nodup_cons.mpr ⟨hnew, hx.nodup⟩, fun k hk => ?_⟩
      rcases List.mem_cons.mp hk with rfl | hk
      · exact Nat.lt_succ_self _
      · exact Nat.lt_succ_of_lt (hx.fresh k hk)
  | close thread k =>
      simp only [EditScopes.step]
      split
      next hk =>
        refine ⟨perm_close hx.table hk, ?_, hx.nodup.erase k, fun j hj => ?_⟩
        · exact (Slots.release_perm x.slots k.owner).trans (perm_close hx.slots hk)
        · exact hx.fresh j (List.mem_of_mem_erase hj)
      next => exact hx
  | insert record => exact hx.of_openEdits (BindingTable.insert_openEdits x.table record)
  | remove id => exact hx.of_openEdits (BindingTable.remove_openEdits x.table id)
  | setStatus handle status message =>
      exact hx.of_openEdits (BindingTable.setStatus_openEdits x.table handle status message)

theorem Counted.run (hx : x.Counted) (steps : List Step) : (x.run steps).Counted := by
  induction steps generalizing x with
  | nil => exact hx
  | cons a rest ih => exact ih (hx.step a)

theorem counted_empty : Counted {} := ⟨.nil, .nil, .nil, fun _ hk => nomatch hk⟩

theorem Counted.isEditing_iff (hx : x.Counted) (t : Thread) :
    x.table.isEditing t = true ↔ ∃ k ∈ x.opened, k.owner = t := by
  rw [BindingTable.isEditing, List.contains_iff_mem, hx.table.mem_iff, List.mem_map]

theorem Counted.contains_slots (hx : x.Counted) (t : Thread) :
    x.slots.contains t = x.table.isEditing t := by
  rw [BindingTable.isEditing, Bool.eq_iff_iff, List.contains_iff_mem, List.contains_iff_mem]
  exact (hx.slots.trans hx.table.symm).mem_iff

/-- What a thread has open is not touched by the scopes of another. -/
theorem isEditing_step {a : Step} {t : Thread} (ha : a.owner? ≠ some t) :
    (x.step a).table.isEditing t = x.table.isEditing t := by
  cases a with
  | begin thread =>
      have hne : t ≠ thread := fun h => ha (congrArg some h.symm)
      simp [step, BindingTable.isEditing, BindingTable.beginEdit, hne]
  | close thread k =>
      have hne : t ≠ k.owner := fun h => ha (congrArg some h.symm)
      simp only [step]
      split
      · rw [BindingTable.isEditing, BindingTable.isEditing, BindingTable.endEdit, Bool.eq_iff_iff,
          List.contains_iff_mem, List.contains_iff_mem, List.mem_erase_of_ne hne]
      · rfl
  | insert record => simp only [step, BindingTable.isEditing, BindingTable.insert_openEdits]
  | remove id => simp only [step, BindingTable.isEditing, BindingTable.remove_openEdits]
  | setStatus handle status message =>
      simp only [step, BindingTable.isEditing, BindingTable.setStatus_openEdits]

/-- A scope is open until it is closed itself. -/
theorem mem_opened_step {a : Step} {k : EditScope} (hk : k ∈ x.opened)
    (ha : ∀ thread, a ≠ .close thread k) : k ∈ (x.step a).opened := by
  cases a with
  | begin thread => exact List.mem_cons_of_mem _ hk
  | close thread j =>
      have hne : k ≠ j := fun h => ha thread (h ▸ rfl)
      simp only [step]
      split
      · exact (List.mem_erase_of_ne hne).mpr hk
      · exact hk
  | insert | remove | setStatus => exact hk

theorem Counted.not_mem_opened_close (hx : x.Counted) (thread : Thread) (k : EditScope) :
    k ∉ (x.step (.close thread k)).opened := by
  simp only [EditScopes.step]
  split
  · exact hx.nodup.not_mem_erase
  · assumption

/-- After any interleaving, the entries are the owners of the open scopes, each as often as it has
scopes open, in the table and in the vector. A thread is editing exactly while a scope that it
opened is open. The next step, wherever it is made, leaves open every scope but the one that it
closes, and what a thread sees changes only by its own scopes. -/
theorem counts_open_scopes (steps : List Step) :
    let x := run {} steps
    x.table.openEdits.Perm (x.opened.map EditScope.owner) ∧
    x.slots.Perm (x.opened.map EditScope.owner) ∧
    (∀ t, x.table.isEditing t = true ↔ ∃ k ∈ x.opened, k.owner = t) ∧
    (∀ t, x.slots.contains t = x.table.isEditing t) ∧
    ∀ a,
      (∀ t, a.owner? ≠ some t → (x.step a).table.isEditing t = x.table.isEditing t) ∧
      (∀ k ∈ x.opened, (∀ thread, a ≠ .close thread k) →
        k ∈ (x.step a).opened ∧ (x.step a).table.isEditing k.owner = true) ∧
      ∀ thread k, a = .close thread k → k ∉ (x.step a).opened := by
  intro x
  have hx : x.Counted := counted_empty.run steps
  refine ⟨hx.table, hx.slots, hx.isEditing_iff, hx.contains_slots, fun a =>
    ⟨fun t ha => isEditing_step ha, fun k hk ha => ?_, ?_⟩⟩
  · have hopen : k ∈ (x.step a).opened := mem_opened_step hk ha
    exact ⟨hopen, ((hx.step a).isEditing_iff k.owner).mpr ⟨k, hopen, rfl⟩⟩
  · rintro thread k rfl
    exact hx.not_mem_opened_close thread k

/-- The first of three scopes is closed first, and by another thread. -/
example :
    let x := run {} [.begin (.caller 0), .begin (.caller 1), .begin (.caller 2),
      .close (.caller 1) ⟨0, .caller 0⟩]
    x.slots = [.caller 2, .caller 1] ∧ x.table.isEditing (.caller 1) = true ∧
      x.table.isEditing (.caller 0) = false := by decide

end EditScopes

end DebugSession
