import DebugSession.BindingTable
import DebugSession.Proofs.Keyed

namespace DebugSession.BindingTable

variable (t : BindingTable) (r : BindingRecord) (id : BreakEventId)

def Distinct : Prop := (t.records.map (·.id)).Nodup

theorem id_of_get? {t : BindingTable} {r : BindingRecord} {id : BreakEventId}
    (hr : t.get? id = some r) : r.id = id := by
  have hid := List.find?_some hr
  simpa using hid

theorem mem_of_get? {t : BindingTable} {r : BindingRecord} {id : BreakEventId}
    (hr : t.get? id = some r) : r ∈ t.records := List.mem_of_find?_eq_some hr

theorem get?_of_mem {t : BindingTable} (hdistinct : t.Distinct) {r : BindingRecord}
    (hr : r ∈ t.records) : t.get? r.id = some r := Keyed.find?_of_mem _ hdistinct hr

theorem filter_of_get? {t : BindingTable} (hdistinct : t.Distinct) {r : BindingRecord}
    {id : BreakEventId} (hr : t.get? id = some r) : t.records.filter (·.id == id) = [r] := by
  rw [← id_of_get? hr]
  exact Keyed.filter_of_mem _ hdistinct (mem_of_get? hr)

theorem remove_records : (t.remove id).records = t.records.filter (·.id != id) := by
  simp only [remove]
  cases h : t.get? id with
  | none =>
      refine (List.filter_eq_self.mpr fun r hr => ?_).symm
      simpa using List.find?_eq_none.mp h r hr
  | some r => rfl

theorem own_records (handle : Option BindingHandle) : (t.own id handle).records = t.records := by
  cases handle <;> rfl

theorem insert_records : (t.insert r).records = t.records.filter (·.id != r.id) ++ [r] := by
  simp only [insert, own_records, remove_records]

theorem get?_remove (id' : BreakEventId) :
    (t.remove id).get? id' = if id' = id then none else t.get? id' := by
  simp only [get?]
  rw [remove_records, Keyed.find?_filter_ne]

theorem get?_insert : (t.insert r).get? id = if id = r.id then some r else t.get? id := by
  simp only [get?]
  rw [insert_records, List.find?_append, Keyed.find?_filter_ne]
  by_cases hid : id = r.id
  · simp [hid]
  · simp [hid, Ne.symm hid]

theorem setStatus_records (handle : BindingHandle) (status : BindingStatus)
    (message : Option String) :
    (t.setStatus handle status message).records = t.records.map fun r =>
      if t.owner? handle = some r.id then { r with status := status, statusMessage := message }
      else r := by
  simp only [setStatus]
  cases h : t.owner? handle with
  | none => simp
  | some id =>
      refine List.map_congr_left fun r _ => ?_
      by_cases hid : r.id = id
      · simp [hid]
      · simp [hid, Ne.symm hid]

theorem get?_setStatus (handle : BindingHandle) (status : BindingStatus) (message : Option String) :
    (t.setStatus handle status message).get? id = (t.get? id).map fun r =>
      if t.owner? handle = some r.id then { r with status := status, statusMessage := message }
      else r := by
  simp only [get?]
  rw [setStatus_records]
  refine Keyed.find?_map _ (fun r => ?_) id
  split <;> rfl

theorem Distinct.remove {t : BindingTable} (hdistinct : t.Distinct) (id : BreakEventId) :
    (t.remove id).Distinct := by
  simp only [Distinct]
  rw [remove_records]
  exact Keyed.nodup_filter _ hdistinct _

theorem Distinct.insert {t : BindingTable} (hdistinct : t.Distinct) (r : BindingRecord) :
    (t.insert r).Distinct := by
  simp only [Distinct]
  rw [insert_records, List.map_append, List.nodup_append]
  refine ⟨Keyed.nodup_filter _ hdistinct _, by simp, ?_⟩
  intro id hid id' hid' heq
  obtain ⟨x, hx, rfl⟩ := List.mem_map.mp hid
  have hne := (List.mem_filter.mp hx).2
  rw [List.mem_singleton.mp hid'] at heq
  simp [heq] at hne

theorem Distinct.setStatus {t : BindingTable} (hdistinct : t.Distinct) (handle : BindingHandle)
    (status : BindingStatus) (message : Option String) :
    (t.setStatus handle status message).Distinct := by
  simp only [Distinct]
  rw [setStatus_records, Keyed.map_key_map]
  · exact hdistinct
  · intro r
    split <;> rfl

theorem lookup_filter {owners : List (BindingHandle × BreakEventId)} {handle : BindingHandle}
    {id : BreakEventId} {p : BindingHandle × BreakEventId → Bool}
    (hid : owners.lookup handle = some id) (hp : p (handle, id) = true) :
    (owners.filter p).lookup handle = some id := by
  induction owners with
  | nil => simp at hid
  | cons o rest ih =>
      obtain ⟨handle', id'⟩ := o
      by_cases hhandle : handle = handle'
      · subst hhandle
        obtain rfl : id' = id := by simpa using hid
        simp [hp]
      · have hbeq : (handle == handle') = false := by simpa using hhandle
        have hrest : rest.lookup handle = some id := by
          simpa [List.lookup_cons, hbeq] using hid
        rw [List.filter_cons]
        split
        · simpa [List.lookup_cons, hbeq] using ih hrest
        · exact ih hrest

theorem owner?_own_self (handle : BindingHandle) :
    (t.own id (some handle)).owner? handle = some id := by
  have hnone : (t.owners.filter (·.1 != handle)).lookup handle = none := by
    refine List.lookup_eq_none_iff.mpr fun o ho => ?_
    have hne := (List.mem_filter.mp ho).2
    have hne' : o.1 ≠ handle := by simpa using hne
    simpa using Ne.symm hne'
  simp [own, owner?, List.lookup_append, hnone]

theorem owner?_own_of_ne {t : BindingTable} {id id' : BreakEventId} {handle : BindingHandle}
    {handle' : Option BindingHandle} (howner : t.owner? handle = some id')
    (hhandle : handle' ≠ some handle) : (t.own id handle').owner? handle = some id' := by
  cases handle' with
  | none => exact howner
  | some handle' =>
      have hne : handle ≠ handle' := fun h => hhandle (h ▸ rfl)
      have hkept := lookup_filter (p := (·.1 != handle')) howner (by simpa using hne)
      simp [own, owner?, List.lookup_append, hkept]

theorem owner?_remove {t : BindingTable} {id id' : BreakEventId} {handle : BindingHandle}
    (howner : t.owner? handle = some id') (hid : id' ≠ id) :
    (t.remove id).owner? handle = some id' := by
  simp only [remove]
  cases h : t.get? id with
  | none => exact howner
  | some r =>
      rw [← id_of_get? h] at hid
      exact lookup_filter howner (by simp [hid])

theorem owner?_insert_self {r : BindingRecord} {handle : BindingHandle}
    (hhandle : r.handle = some handle) : (t.insert r).owner? handle = some r.id := by
  change ((t.remove r.id).own r.id r.handle).owner? handle = some r.id
  rw [hhandle]
  exact owner?_own_self _ _ _

theorem owner?_insert_of_ne {t : BindingTable} {r : BindingRecord} {id : BreakEventId}
    {handle : BindingHandle} (howner : t.owner? handle = some id) (hid : id ≠ r.id)
    (hhandle : r.handle ≠ some handle) : (t.insert r).owner? handle = some id :=
  owner?_own_of_ne (owner?_remove howner hid) hhandle

@[simp] theorem owner?_setStatus (handle handle' : BindingHandle) (status : BindingStatus)
    (message : Option String) :
    (t.setStatus handle status message).owner? handle' = t.owner? handle' := by
  simp only [setStatus]
  cases t.owner? handle <;> rfl

@[simp] theorem remove_openEdits : (t.remove id).openEdits = t.openEdits := by
  simp only [remove]
  cases t.get? id <;> rfl

@[simp] theorem insert_openEdits : (t.insert r).openEdits = t.openEdits := by
  simp only [insert]
  cases r.handle <;> simp [own]

@[simp] theorem setStatus_openEdits (handle : BindingHandle) (status : BindingStatus)
    (message : Option String) : (t.setStatus handle status message).openEdits = t.openEdits := by
  simp only [setStatus]
  cases t.owner? handle <;> rfl

theorem remove_with (t : BindingTable) (es : List Thread) (id : BreakEventId) :
    { t with openEdits := es }.remove id = { t.remove id with openEdits := es } := by
  have hget : { t with openEdits := es }.get? id = t.get? id := rfl
  simp only [remove, hget]
  cases t.get? id <;> rfl

theorem insert_with (t : BindingTable) (es : List Thread) (r : BindingRecord) :
    { t with openEdits := es }.insert r = { t.insert r with openEdits := es } := by
  simp only [insert, remove_with]
  cases r.handle <;> rfl

theorem endEdit_insert_beginEdit (t : BindingTable) (thread : Thread) (r : BindingRecord) :
    ((t.beginEdit thread).insert r).endEdit thread = t.insert r := by
  simp only [beginEdit, insert_with, endEdit, List.erase_cons_head]
  rw [← insert_openEdits t r]

theorem setStatus_with (t : BindingTable) (es : List Thread) (handle : BindingHandle)
    (status : BindingStatus) (message : Option String) :
    { t with openEdits := es }.setStatus handle status message =
      { t.setStatus handle status message with openEdits := es } := by
  have howner : { t with openEdits := es }.owner? handle = t.owner? handle := rfl
  simp only [setStatus, howner]
  cases t.owner? handle <;> rfl

end DebugSession.BindingTable
