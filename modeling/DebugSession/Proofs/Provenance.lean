import DebugSession.Proofs.Recall
import DebugSession.Proofs.Table
import Mathlib.Data.List.Induction
import Mathlib.Data.List.Nodup
import Mathlib.Data.List.Perm.Subperm

namespace DebugSession

inductive TableEdit
  | insert (r : BindingRecord)
  | remove (id : BreakEventId)
  | setStatus (handle : BindingHandle) (status : BindingStatus) (message : Option String)

namespace TableEdit

def apply (t : BindingTable) : TableEdit → BindingTable
  | insert r => t.insert r
  | remove id => t.remove id
  | setStatus handle status message => t.setStatus handle status message

def touches (id : BreakEventId) : TableEdit → Bool
  | insert r => r.id == id
  | remove id' => id' == id
  | setStatus _ _ _ => false

def carries (handle : BindingHandle) : TableEdit → Bool
  | insert r => r.handle == some handle
  | _ => false

def inForce : List TableEdit → List (BindingRecord × List TableEdit)
  | [] => []
  | insert r :: later =>
    if later.any (·.touches r.id) then inForce later else (r, later) :: inForce later
  | _ :: later => inForce later

def Owns (past : List TableEdit) (handle : BindingHandle) (id : BreakEventId) : Prop :=
  ∃ before r later, past = before ++ insert r :: later ∧ r.id = id ∧ r.handle = some handle ∧
    ∀ o ∈ later, o.carries handle = false ∧ o.touches id = false

end TableEdit

namespace BindingRecord

def updated (r : BindingRecord) : TableEdit → BindingRecord
  | .setStatus handle status message =>
    if r.handle = some handle then { r with status := status, statusMessage := message } else r
  | _ => r

/-- A record with the changes of status by its handle, until another record takes the handle. -/
def following (r : BindingRecord) : List TableEdit → BindingRecord
  | [] => r
  | o :: later => if r.handle.any o.carries then r else (r.updated o).following later

variable (r : BindingRecord) (o : TableEdit) (later : List TableEdit)

theorem updated_id : (r.updated o).id = r.id := by
  cases o with
  | setStatus handle status message =>
      simp only [updated]
      split <;> rfl
  | _ => rfl

theorem updated_handle : (r.updated o).handle = r.handle := by
  cases o with
  | setStatus handle status message =>
      simp only [updated]
      split <;> rfl
  | _ => rfl

theorem following_id : (r.following later).id = r.id := by
  induction later generalizing r with
  | nil => rfl
  | cons o later ih =>
      simp only [following]
      split
      · rfl
      · rw [ih, updated_id]

theorem following_handle : (r.following later).handle = r.handle := by
  induction later generalizing r with
  | nil => rfl
  | cons o later ih =>
      simp only [following]
      split
      · rfl
      · rw [ih, updated_handle]

theorem following_concat : r.following (later ++ [o]) =
    if later.any (fun p => r.handle.any p.carries) then r.following later
    else (r.following later).updated o := by
  induction later generalizing r with
  | nil =>
      change (if r.handle.any o.carries then r else r.updated o) = r.updated o
      cases o with
      | setStatus handle status message => cases r.handle <;> rfl
      | _ => exact ite_self _
  | cons p later ih =>
      simp only [List.cons_append, following, List.any_cons]
      by_cases hp : r.handle.any p.carries = true
      · simp [hp]
      · rw [if_neg hp, if_neg hp, ih, updated_handle]
        simp [hp]

end BindingRecord

namespace TableEdit

variable (past : List TableEdit) (o : TableEdit)

theorem inForce_concat : inForce (past ++ [o]) =
    ((inForce past).filter fun x => !o.touches x.1.id).map (fun x => (x.1, x.2 ++ [o])) ++
      match o with
      | insert r => [(r, [])]
      | _ => [] := by
  induction past with
  | nil => cases o <;> rfl
  | cons p later ih =>
      cases p with
      | insert r =>
          simp only [List.cons_append, inForce, List.any_append, List.any_cons, List.any_nil,
            Bool.or_false, Bool.or_eq_true]
          by_cases hlater : later.any (·.touches r.id) = true
          · rw [if_pos (.inl hlater), if_pos hlater, ih]
          · by_cases ho : o.touches r.id = true
            · rw [if_pos (.inr ho), if_neg hlater, ih, List.filter_cons_of_neg (by simp [ho])]
            · rw [if_neg (by simp [hlater, ho]), if_neg hlater, ih,
                List.filter_cons_of_pos (by simp [ho])]
              rfl
      | _ => exact ih

theorem mem_inForce {x : BindingRecord × List TableEdit} : x ∈ inForce past ↔
    ∃ before, past = before ++ insert x.1 :: x.2 ∧ ∀ o ∈ x.2, o.touches x.1.id = false := by
  induction past with
  | nil => simp [inForce]
  | cons p later ih =>
      have hskip : (∃ before, p :: later = before ++ insert x.1 :: x.2 ∧
            ∀ o ∈ x.2, o.touches x.1.id = false) ↔
          (p = insert x.1 ∧ later = x.2 ∧ ∀ o ∈ x.2, o.touches x.1.id = false) ∨
            x ∈ inForce later := by
        rw [ih]
        constructor
        · rintro ⟨before, hbefore, hlater⟩
          cases before with
          | nil =>
              obtain ⟨rfl, rfl⟩ := List.cons.inj hbefore
              exact .inl ⟨rfl, rfl, hlater⟩
          | cons p' before =>
              exact .inr ⟨before, (List.cons.inj hbefore).2, hlater⟩
        · rintro (⟨rfl, rfl, hlater⟩ | ⟨before, rfl, hlater⟩)
          · exact ⟨[], rfl, hlater⟩
          · exact ⟨p :: before, rfl, hlater⟩
      rw [hskip]
      cases p with
      | insert r =>
          simp only [inForce]
          split
          · rename_i hany
            refine (or_iff_right ?_).symm
            rintro ⟨hr, hx, hlater⟩
            cases hr
            obtain ⟨o, ho, htouches⟩ := List.any_eq_true.mp hany
            cases (hlater o (hx ▸ ho)).symm.trans htouches
          · rename_i hany
            obtain ⟨r', later'⟩ := x
            rw [List.mem_cons, Prod.mk.injEq]
            refine or_congr_left ⟨?_, ?_⟩
            · rintro ⟨rfl, rfl⟩
              refine ⟨rfl, rfl, fun o ho => ?_⟩
              rw [← Bool.not_eq_true]
              exact fun htouches => hany (List.any_eq_true.mpr ⟨o, ho, htouches⟩)
            · rintro ⟨hr, rfl, -⟩
              cases hr
              exact ⟨rfl, rfl⟩
      | _ => simp [inForce]

theorem owns_concat {handle : BindingHandle} {id : BreakEventId} : Owns (past ++ [o]) handle id ↔
    (∃ r, o = insert r ∧ r.id = id ∧ r.handle = some handle) ∨
      Owns past handle id ∧ o.carries handle = false ∧ o.touches id = false := by
  constructor
  · rintro ⟨before, r, later, hpast, hid, hhandle, hlater⟩
    rcases append_singleton_eq hpast with ⟨-, ho, -⟩ | ⟨later, rfl, rfl⟩
    · exact .inl ⟨r, ho, hid, hhandle⟩
    · refine .inr ⟨⟨before, r, later, rfl, hid, hhandle, fun q hq => ?_⟩, ?_⟩
      · exact hlater q (List.mem_append_left _ hq)
      · exact hlater o (List.mem_append_right _ List.mem_cons_self)
  · rintro (⟨r, rfl, hid, hhandle⟩ | ⟨⟨before, r, later, rfl, hid, hhandle, hlater⟩, ho⟩)
    · exact ⟨past, r, [], rfl, hid, hhandle, fun q hq => by cases hq⟩
    · refine ⟨before, r, later ++ [o], by simp, hid, hhandle, fun q hq => ?_⟩
      rcases List.mem_append.mp hq with hq | hq
      · exact hlater q hq
      · exact List.mem_singleton.mp hq ▸ ho

theorem owns_iff {handle : BindingHandle} {id : BreakEventId} : Owns past handle id ↔
    ∃ x ∈ inForce past, x.1.id = id ∧ x.1.handle = some handle ∧
      ∀ o ∈ x.2, o.carries handle = false := by
  simp only [mem_inForce]
  constructor
  · rintro ⟨before, r, later, hpast, rfl, hhandle, hlater⟩
    exact ⟨(r, later), ⟨before, hpast, fun o ho => (hlater o ho).2⟩, rfl, hhandle,
      fun o ho => (hlater o ho).1⟩
  · rintro ⟨x, ⟨before, hpast, htouches⟩, rfl, hhandle, hcarries⟩
    exact ⟨before, x.1, x.2, hpast, rfl, hhandle, fun o ho => ⟨hcarries o ho, htouches o ho⟩⟩

end TableEdit

namespace BindingTable

open TableEdit

theorem setStatus_owners (t : BindingTable) (handle : BindingHandle) (status : BindingStatus)
    (message : Option String) : (t.setStatus handle status message).owners = t.owners := by
  simp only [setStatus]
  cases t.owner? handle <;> rfl

structure Indexed (t : BindingTable) : Prop where
  distinct : t.Distinct
  handles : (t.owners.map (·.1)).Nodup
  backed : ∀ o ∈ t.owners, ∃ r, t.get? o.2 = some r ∧ r.handle = some o.1

variable {t : BindingTable} (ht : t.Indexed) {handle : BindingHandle} {id : BreakEventId}
include ht

theorem Indexed.owner?_eq_some_iff : t.owner? handle = some id ↔ (handle, id) ∈ t.owners := by
  have hhandles := ht.handles
  simp only [owner?]
  generalize t.owners = owners at hhandles
  induction owners with
  | nil => simp
  | cons o rest ih =>
      obtain ⟨handle', id'⟩ := o
      rw [List.map_cons, List.nodup_cons] at hhandles
      by_cases hhandle : handle = handle'
      · subst hhandle
        have hrest : (handle, id) ∉ rest := fun hmem =>
          hhandles.1 (List.mem_map_of_mem (f := (·.1)) hmem)
        simp [hrest, eq_comm]
      · have hne : (handle == handle') = false := by simpa using hhandle
        simp [List.lookup_cons, hne, hhandle, ih hhandles.2]

theorem Indexed.mem_owners_remove (id' : BreakEventId) :
    (handle, id) ∈ (t.remove id').owners ↔ id ≠ id' ∧ (handle, id) ∈ t.owners := by
  simp only [remove]
  cases hget : t.get? id' with
  | none =>
      refine ⟨fun hmem => ⟨?_, hmem⟩, And.right⟩
      rintro rfl
      obtain ⟨r, hr, -⟩ := ht.backed _ hmem
      cases hget.symm.trans hr
  | some r =>
      obtain rfl := id_of_get? hget
      simp only [release, List.mem_filter, Bool.not_eq_true', Bool.and_eq_false_iff,
        beq_eq_false_iff_ne]
      constructor
      · rintro ⟨hmem, hne⟩
        refine ⟨?_, hmem⟩
        rintro rfl
        obtain ⟨r', hr', hhandle⟩ := ht.backed _ hmem
        obtain rfl := Option.some.inj (hget.symm.trans hr')
        exact hne.elim (fun h => h hhandle.symm) (fun h => h rfl)
      · rintro ⟨hne, hmem⟩
        exact ⟨hmem, .inr hne⟩

theorem Indexed.mem_owners_insert (r : BindingRecord) :
    (handle, id) ∈ (t.insert r).owners ↔
      id = r.id ∧ r.handle = some handle ∨
        r.handle ≠ some handle ∧ id ≠ r.id ∧ (handle, id) ∈ t.owners := by
  change (handle, id) ∈ ((t.remove r.id).own r.id r.handle).owners ↔ _
  cases hhandle : r.handle with
  | none =>
      change (handle, id) ∈ (t.remove r.id).owners ↔ _
      rw [ht.mem_owners_remove]
      simp
  | some handle' =>
      simp only [own, List.mem_append, List.mem_filter, List.mem_singleton, Prod.mk.injEq,
        bne_iff_ne, ht.mem_owners_remove, Option.some.injEq, ne_eq]
      constructor
      · rintro (⟨⟨hid, hmem⟩, hne⟩ | ⟨rfl, rfl⟩)
        · exact .inr ⟨Ne.symm hne, hid, hmem⟩
        · exact .inl ⟨rfl, rfl⟩
      · rintro (⟨rfl, rfl⟩ | ⟨hne, hid, hmem⟩)
        · exact .inr ⟨rfl, rfl⟩
        · exact .inl ⟨⟨hid, hmem⟩, Ne.symm hne⟩

theorem Indexed.nodup_remove (id' : BreakEventId) : ((t.remove id').owners.map (·.1)).Nodup := by
  simp only [remove]
  cases t.get? id' with
  | none => exact ht.handles
  | some r => exact Keyed.nodup_filter _ ht.handles _

theorem Indexed.nodup_insert (r : BindingRecord) : ((t.insert r).owners.map (·.1)).Nodup := by
  change (((t.remove r.id).own r.id r.handle).owners.map (·.1)).Nodup
  have hremoved := ht.nodup_remove r.id
  cases r.handle with
  | none => exact hremoved
  | some handle =>
      simp only [own, List.map_append]
      rw [List.nodup_append]
      refine ⟨Keyed.nodup_filter _ hremoved _, by simp, ?_⟩
      intro x hx y hy heq
      obtain ⟨o, ho, rfl⟩ := List.mem_map.mp hx
      have hne := (List.mem_filter.mp ho).2
      rw [List.mem_singleton.mp hy] at heq
      simp [heq] at hne

theorem Indexed.apply (o : TableEdit) : (o.apply t).Indexed := by
  cases o with
  | insert r =>
      refine ⟨ht.distinct.insert r, ht.nodup_insert r, fun o ho => ?_⟩
      obtain ⟨handle, id⟩ := o
      simp only [TableEdit.apply]
      rw [get?_insert]
      rcases (ht.mem_owners_insert r).mp ho with ⟨rfl, hhandle⟩ | ⟨-, hid, hmem⟩
      · exact ⟨r, if_pos rfl, hhandle⟩
      · rw [if_neg hid]
        exact ht.backed _ hmem
  | remove id' =>
      refine ⟨ht.distinct.remove id', ht.nodup_remove id', fun o ho => ?_⟩
      obtain ⟨handle, id⟩ := o
      obtain ⟨hid, hmem⟩ := (ht.mem_owners_remove id').mp ho
      simp only [TableEdit.apply]
      rw [get?_remove, if_neg hid]
      exact ht.backed _ hmem
  | setStatus handle' status message =>
      have howners := setStatus_owners t handle' status message
      refine ⟨ht.distinct.setStatus _ _ _, howners ▸ ht.handles, fun o ho => ?_⟩
      obtain ⟨r, hr, hhandle⟩ := ht.backed o (howners ▸ ho)
      simp only [TableEdit.apply]
      rw [get?_setStatus, hr]
      refine ⟨_, rfl, ?_⟩
      dsimp only
      split <;> exact hhandle

/-- A record owns one handle at most. -/
theorem Indexed.handleCount_le : t.handleCount ≤ t.size := by
  have hids : (t.owners.map (·.2)).Nodup := by
    refine List.Nodup.map_on (fun o ho o' ho' hid => ?_) (List.Nodup.of_map _ ht.handles)
    obtain ⟨r, hr, hhandle⟩ := ht.backed o ho
    obtain ⟨r', hr', hhandle'⟩ := ht.backed o' ho'
    rw [hid] at hr
    obtain rfl := Option.some.inj (hr.symm.trans hr')
    exact Prod.ext (Option.some.inj (hhandle.symm.trans hhandle')) hid
  have hsubset : t.owners.map (·.2) ⊆ t.records.map (·.id) := by
    intro id hid
    obtain ⟨o, ho, rfl⟩ := List.mem_map.mp hid
    obtain ⟨r, hr, -⟩ := ht.backed o ho
    rw [← id_of_get? hr]
    exact List.mem_map_of_mem (mem_of_get? hr)
  simpa [handleCount, size] using (List.subperm_of_subset hids hsubset).length_le

theorem Indexed.byHandle?_of_owner? (howner : t.owner? handle = some id) :
    ∃ r, t.byHandle? handle = some r ∧ r.id = id ∧ t.get? id = some r ∧ r.handle = some handle := by
  obtain ⟨r, hr, hhandle⟩ := ht.backed _ (ht.owner?_eq_some_iff.mp howner)
  exact ⟨r, by simp [byHandle?, howner, hr], id_of_get? hr, hr, hhandle⟩

theorem Indexed.byHandle?_eq_none_iff : t.byHandle? handle = none ↔ t.owner? handle = none := by
  constructor
  · intro hbyHandle
    cases howner : t.owner? handle with
    | none => rfl
    | some id =>
        obtain ⟨r, hr, -⟩ := ht.byHandle?_of_owner? howner
        cases hbyHandle.symm.trans hr
  · intro howner
    simp [byHandle?, howner]

theorem Indexed.setStatus_eq (status : BindingStatus) (message : Option String) :
    t.setStatus handle status message =
      match t.byHandle? handle with
      | none => t
      | some owner =>
        { t with records := t.records.map fun r =>
            if r = owner then { r with status := status, statusMessage := message } else r } := by
  cases howner : t.owner? handle with
  | none =>
      rw [ht.byHandle?_eq_none_iff.mpr howner]
      simp only [BindingTable.setStatus, howner]
  | some id =>
      obtain ⟨owner, hbyHandle, rfl, hget, -⟩ := ht.byHandle?_of_owner? howner
      rw [hbyHandle]
      simp only [BindingTable.setStatus, howner]
      congr 1
      refine List.map_congr_left fun r hr => ?_
      have heq : r.id = owner.id ↔ r = owner := by
        refine ⟨fun hid => ?_, fun h => h ▸ rfl⟩
        have hr' := get?_of_mem ht.distinct hr
        rw [hid, hget] at hr'
        exact (Option.some.inj hr').symm
      simp [heq]

omit ht

theorem indexed_empty : ({} : BindingTable).Indexed :=
  ⟨List.nodup_nil, List.nodup_nil, fun _ ho => nomatch ho⟩

def ofEdits (past : List TableEdit) : BindingTable := past.foldl TableEdit.apply {}

theorem ofEdits_concat (past : List TableEdit) (o : TableEdit) :
    ofEdits (past ++ [o]) = o.apply (ofEdits past) := List.foldl_concat _ _ _ _

theorem indexed_ofEdits (past : List TableEdit) : (ofEdits past).Indexed := by
  induction past using List.reverseRecOn with
  | nil => exact indexed_empty
  | append_singleton past o ih =>
      rw [ofEdits_concat]
      exact ih.apply o

/-- The table is as its past says. -/
structure Traces (past : List TableEdit) (t : BindingTable) : Prop where
  records : t.records = (inForce past).map fun x => x.1.following x.2
  owner : ∀ handle id, t.owner? handle = some id ↔ Owns past handle id

variable {past : List TableEdit}

theorem Traces.ids (hpast : Traces past t) :
    t.records.map (·.id) = (inForce past).map (·.1.id) := by
  rw [hpast.records, List.map_map]
  exact List.map_congr_left fun x _ => x.1.following_id x.2

/-- A change of status reaches the records that it says it does. -/
theorem Traces.reached (hpast : Traces past t) (ht : t.Indexed) {x : BindingRecord × List TableEdit}
    (hx : x ∈ inForce past) : t.owner? handle = some x.1.id ↔
      x.1.handle = some handle ∧ ∀ o ∈ x.2, o.carries handle = false := by
  rw [hpast.owner, owns_iff]
  constructor
  · rintro ⟨y, hy, hid, howns⟩
    have hdistinct : ((inForce past).map (·.1.id)).Nodup := hpast.ids ▸ ht.distinct
    obtain rfl := List.inj_on_of_nodup_map hdistinct hy hx hid
    exact howns
  · exact fun howns => ⟨x, hx, rfl, howns⟩

theorem Traces.updated (hpast : Traces past t) (ht : t.Indexed) (status : BindingStatus)
    (message : Option String) {x : BindingRecord × List TableEdit} (hx : x ∈ inForce past) :
    (if t.owner? handle = some (x.1.following x.2).id then
        { x.1.following x.2 with status := status, statusMessage := message }
      else x.1.following x.2) =
      x.1.following (x.2 ++ [.setStatus handle status message]) := by
  rw [BindingRecord.following_concat, BindingRecord.following_id]
  simp only [hpast.reached ht hx, BindingRecord.updated, BindingRecord.following_handle]
  by_cases hhandle : x.1.handle = some handle
  · by_cases htaken : ∀ o ∈ x.2, o.carries handle = false
    · rw [if_pos ⟨hhandle, htaken⟩, if_neg, if_pos hhandle]
      simpa [hhandle] using htaken
    · rw [if_neg fun h => htaken h.2, if_pos]
      simpa [hhandle] using htaken
  · rw [if_neg fun h => hhandle h.1, if_neg hhandle, ite_self]

/-- What an edit leaves in force it does not change, but by its status. -/
theorem Traces.records_apply (hpast : Traces past t) (ht : t.Indexed) (o : TableEdit) :
    (o.apply t).records = (inForce (past ++ [o])).map fun x => x.1.following x.2 := by
  have hkept (p : TableEdit) (hp : ∀ x, BindingRecord.updated x p = x)
      (x : BindingRecord × List TableEdit) : x.1.following (x.2 ++ [p]) = x.1.following x.2 := by
    rw [BindingRecord.following_concat, hp, ite_self]
  have hfilter (p : TableEdit) (id : BreakEventId) (hp : ∀ x, BindingRecord.updated x p = x)
      (hid : ∀ id', p.touches id' = (id == id')) : t.records.filter (·.id != id) =
      (((inForce past).filter fun x => !p.touches x.1.id).map fun x => (x.1, x.2 ++ [p])).map
        fun x => x.1.following x.2 := by
    rw [hpast.records, List.filter_map, List.map_map]
    simp only [Function.comp_def, BindingRecord.following_id, hkept p hp, hid, bne]
    simp only [Bool.beq_comm]
  rw [inForce_concat, List.map_append]
  cases o with
  | insert r =>
      simp only [TableEdit.apply]
      rw [insert_records, ← hfilter (.insert r) r.id (fun _ => rfl) fun _ => rfl]
      rfl
  | remove id =>
      simp only [TableEdit.apply]
      rw [remove_records, ← hfilter (.remove id) id (fun _ => rfl) fun _ => rfl]
      simp
  | setStatus handle status message =>
      simp only [TableEdit.apply]
      rw [setStatus_records, hpast.records, List.map_map]
      simp only [touches, Bool.not_false, List.filter_true, List.map_map, List.map_nil,
        List.append_nil]
      exact List.map_congr_left fun x hx => hpast.updated ht status message hx

theorem Traces.apply (hpast : Traces past t) (ht : t.Indexed) (o : TableEdit) :
    Traces (past ++ [o]) (o.apply t) := by
  refine ⟨hpast.records_apply ht o, fun handle id => ?_⟩
  rw [(ht.apply o).owner?_eq_some_iff, owns_concat, ← hpast.owner, ht.owner?_eq_some_iff]
  cases o with
  | insert r =>
      simp only [TableEdit.apply]
      rw [ht.mem_owners_insert]
      simp only [TableEdit.insert.injEq, carries, touches, beq_eq_false_iff_ne, exists_eq_left']
      constructor
      · rintro (⟨rfl, hhandle⟩ | ⟨hhandle, hid, hmem⟩)
        · exact .inl ⟨rfl, hhandle⟩
        · exact .inr ⟨hmem, hhandle, Ne.symm hid⟩
      · rintro (⟨rfl, hhandle⟩ | ⟨hmem, hhandle, hid⟩)
        · exact .inl ⟨rfl, hhandle⟩
        · exact .inr ⟨hhandle, Ne.symm hid, hmem⟩
  | remove id' =>
      simp only [TableEdit.apply]
      rw [ht.mem_owners_remove]
      simp only [reduceCtorEq, false_and, exists_false, false_or, carries, touches,
        beq_eq_false_iff_ne, true_and]
      exact ⟨fun h => ⟨h.2, h.1.symm⟩, fun h => ⟨h.2.symm, h.1⟩⟩
  | setStatus handle' status message =>
      simp only [TableEdit.apply]
      rw [setStatus_owners]
      simp [carries, touches]

theorem traces_ofEdits (past : List TableEdit) : Traces past (ofEdits past) := by
  induction past using List.reverseRecOn with
  | nil =>
      refine ⟨rfl, fun handle id => iff_of_false (by simp [ofEdits, owner?]) ?_⟩
      rintro ⟨before, r, later, hpast, -⟩
      cases before <;> cases hpast
  | append_singleton past o ih =>
      rw [ofEdits_concat]
      exact ih.apply (indexed_ofEdits past) o

/-- What can be seen of a table, from what was done to it. -/
structure Recounts (past : List TableEdit) (t : BindingTable) : Prop where
  records : t.records = (inForce past).map fun x => x.1.following x.2
  once : (t.records.map (·.id)).Nodup
  get : ∀ id r, t.get? id = some r ↔ ∃ before first later,
    past = before ++ .insert first :: later ∧ first.id = id ∧
      (∀ o ∈ later, o.touches id = false) ∧ r = first.following later
  byHandle : ∀ handle r, t.byHandle? handle = some r ↔
    t.get? r.id = some r ∧ Owns past handle r.id
  unowned : ∀ handle, t.byHandle? handle = none ↔ ∀ id, ¬ Owns past handle id
  backed : ∀ o ∈ t.owners, ∃ r, t.get? o.2 = some r ∧ r.handle = some o.1
  handleCount_le : t.handleCount ≤ t.size
  setStatus : ∀ handle status message, t.setStatus handle status message =
    match t.byHandle? handle with
    | none => t
    | some owner =>
      { t with records := t.records.map fun r =>
          if r = owner then { r with status := status, statusMessage := message } else r }

theorem Traces.get?_eq_some_iff (hpast : Traces past t) (ht : t.Indexed) {r : BindingRecord} :
    t.get? id = some r ↔ ∃ before first later,
      past = before ++ .insert first :: later ∧ first.id = id ∧
        (∀ o ∈ later, o.touches id = false) ∧ r = first.following later := by
  have hmem : t.get? id = some r ↔ r ∈ t.records ∧ r.id = id := by
    constructor
    · exact fun hr => ⟨mem_of_get? hr, id_of_get? hr⟩
    · rintro ⟨hr, rfl⟩
      exact get?_of_mem ht.distinct hr
  rw [hmem, hpast.records, List.mem_map]
  simp only [mem_inForce]
  constructor
  · rintro ⟨⟨⟨first, later⟩, ⟨before, hpast, hlater⟩, rfl⟩, rfl⟩
    rw [BindingRecord.following_id]
    exact ⟨before, first, later, hpast, rfl, hlater, rfl⟩
  · rintro ⟨before, first, later, hpast, rfl, hlater, rfl⟩
    exact ⟨⟨(first, later), ⟨before, hpast, hlater⟩, rfl⟩, first.following_id later⟩

theorem recounts_ofEdits (past : List TableEdit) : Recounts past (ofEdits past) := by
  have hpast := traces_ofEdits past
  have ht := indexed_ofEdits past
  refine ⟨hpast.records, ht.distinct, fun id r => hpast.get?_eq_some_iff ht, fun handle r => ?_,
    fun handle => ?_, ht.backed, ht.handleCount_le, fun handle => ht.setStatus_eq⟩
  · rw [← hpast.owner]
    constructor
    · intro hr
      obtain ⟨id, howner, hget⟩ := Option.bind_eq_some_iff.mp hr
      obtain rfl := id_of_get? hget
      exact ⟨hget, howner⟩
    · rintro ⟨hget, howner⟩
      exact Option.bind_eq_some_iff.mpr ⟨r.id, howner, hget⟩
  · rw [ht.byHandle?_eq_none_iff, Option.eq_none_iff_forall_ne_some]
    exact forall_congr' fun id => not_congr (hpast.owner handle id)

end BindingTable

end DebugSession
