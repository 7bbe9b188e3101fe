import DebugSession.Proofs.Scripted

namespace DebugSession

namespace Exchange

def issued (x : Exchange) : Option BindingHandle :=
  match x.request, x.answer with
  | .insert _, .ok b => some b.handle
  | _, _ => none

def refusesChange (x : Exchange) : Bool :=
  match x.request, x.answer with
  | .update _ _, .error _ | .enable _ _, .error _ => true
  | _, _ => false

/-- Bindings are changed when asked for, and no two have the same handle. -/
structure Fair (xs : List Exchange) : Prop where
  changed : ∀ x ∈ xs, x.refusesChange = false
  fresh : (xs.filterMap issued).Nodup

theorem filterMap_insert (e : BreakEvent) (x : Except EngineError Binding) :
    [(⟨.insert e, x⟩ : Exchange)].filterMap issued =
      (BindingRecord.ofAnswer e x).handle.toList := by
  cases x <;> rfl

theorem Fair.of_prefix {xs ys : List Exchange} (hfair : Fair ys) (hxs : xs <+: ys) : Fair xs where
  changed := fun x hx => hfair.changed x (hxs.subset hx)
  fresh := hfair.fresh.sublist (hxs.sublist.filterMap issued)

end Exchange

open Exchange

/-- What a table holds of the events of a view: one record each, up to date if it has a handle,
which then is its own. -/
def BindingTable.Mirrors (t : BindingTable) (handles : List BindingHandle) (m : StoreView) : Prop :=
  ∀ id e, m id = some e → ∃ r, t.get? id = some r ∧ ∀ handle, r.handle = some handle →
    r.breakEvent = e ∧ t.owner? handle = some id ∧ handle ∈ handles

namespace BindingTable.Mirrors

variable {t : BindingTable} {handles : List BindingHandle} {m : StoreView}

theorem insert {r : BindingRecord} (ht : t.Mirrors handles m)
    (hr : ∀ handle, r.handle = some handle → handle ∉ handles) :
    (t.insert r).Mirrors (handles ++ r.handle.toList) (m.put r.breakEvent) := by
  intro id e he
  by_cases hid : id = r.id
  · obtain rfl : r.breakEvent = e := by simpa [StoreView.put, hid, BindingRecord.id] using he
    refine ⟨r, by simp [get?_insert, hid], fun handle hhandle => ⟨rfl, ?_, by simp [hhandle]⟩⟩
    rw [hid]
    exact owner?_insert_self t hhandle
  · have hne : id ≠ r.breakEvent.id := hid
    have hold : m id = some e := by simpa [StoreView.put, hne] using he
    obtain ⟨r', hr', hrecord⟩ := ht id e hold
    refine ⟨r', by simp [get?_insert, hid, hr'], fun handle hhandle => ?_⟩
    obtain ⟨hevent, howner, hmem⟩ := hrecord handle hhandle
    refine ⟨hevent, owner?_insert_of_ne howner hid ?_, List.mem_append_left _ hmem⟩
    exact fun hsame => hr handle hsame hmem

theorem remove (ht : t.Mirrors handles m) (id : BreakEventId) :
    (t.remove id).Mirrors handles (m.erase id) := by
  intro id' e he
  by_cases hid : id' = id
  · simp [StoreView.erase, hid] at he
  · have hold : m id' = some e := by simpa [StoreView.erase, hid] using he
    obtain ⟨r, hr, hrecord⟩ := ht id' e hold
    refine ⟨r, by simp [get?_remove, hid, hr], fun handle hhandle => ?_⟩
    obtain ⟨hevent, howner, hmem⟩ := hrecord handle hhandle
    exact ⟨hevent, owner?_remove howner hid, hmem⟩

/-- A record that follows its event keeps its handle. -/
theorem change (ht : t.Mirrors handles m) {r : BindingRecord} {id : BreakEventId}
    {f : BreakEvent → BreakEvent} (hr : t.get? id = some r) (hknown : (m id).isSome)
    (hf : (f r.breakEvent).id = id) :
    (t.insert { r with breakEvent := f r.breakEvent }).Mirrors handles (m.modify id f) := by
  obtain ⟨old, hold⟩ := Option.isSome_iff_exists.mp hknown
  obtain ⟨r₀, hr₀, hrecord⟩ := ht id old hold
  obtain rfl : r = r₀ := Option.some.inj (hr.symm.trans hr₀)
  have hid₀ : BindingRecord.id { r with breakEvent := f r.breakEvent } = id := hf
  intro id' e he
  by_cases hid : id' = id
  · obtain rfl : f old = e := by simpa [StoreView.modify, hid, hold] using he
    refine ⟨{ r with breakEvent := f r.breakEvent }, by simp [get?_insert, hid₀, hid], ?_⟩
    intro handle hhandle
    obtain ⟨hevent, howner, hmem⟩ := hrecord handle hhandle
    refine ⟨by rw [← hevent], ?_, hmem⟩
    rw [hid, ← hid₀]
    exact owner?_insert_self t hhandle
  · have hold' : m id' = some e := by simpa [StoreView.modify, hid] using he
    obtain ⟨r', hr', hrecord'⟩ := ht id' e hold'
    refine ⟨r', by simp [get?_insert, hid₀, hid, hr'], fun handle hhandle => ?_⟩
    obtain ⟨hevent, howner, hmem⟩ := hrecord' handle hhandle
    refine ⟨hevent, owner?_insert_of_ne howner (hid₀.symm ▸ hid) ?_, hmem⟩
    intro hsame
    exact hid (Option.some.inj (howner.symm.trans (hrecord handle hsame).2.1))

theorem modify_none (ht : t.Mirrors handles m) {id : BreakEventId} {f : BreakEvent → BreakEvent}
    (hr : ∀ r, t.get? id = some r → r.handle = none) : t.Mirrors handles (m.modify id f) := by
  intro id' e he
  by_cases hid : id' = id
  · subst hid
    obtain ⟨old, hold, -⟩ : ∃ old, m id' = some old ∧ f old = e := by
      simpa [StoreView.modify] using he
    obtain ⟨r, hget, -⟩ := ht id' old hold
    refine ⟨r, hget, fun handle hhandle => ?_⟩
    rw [hr r hget] at hhandle
    cases hhandle
  · have hold : m id' = some e := by simpa [StoreView.modify, hid] using he
    exact ht id' e hold

theorem setStatus (ht : t.Mirrors handles m) (handle : BindingHandle) (status : BindingStatus)
    (message : Option String) : (t.setStatus handle status message).Mirrors handles m := by
  intro id e he
  obtain ⟨r, hr, hrecord⟩ := ht id e he
  rw [get?_setStatus, hr]
  refine ⟨_, rfl, ?_⟩
  simp only [owner?_setStatus]
  split
  · exact hrecord
  · exact hrecord

theorem mono (ht : t.Mirrors handles m) {handles' : List BindingHandle}
    (hhandles : ∀ handle ∈ handles, handle ∈ handles') : t.Mirrors handles' m := by
  intro id e he
  obtain ⟨r, hr, hrecord⟩ := ht id e he
  refine ⟨r, hr, fun handle hhandle => ?_⟩
  obtain ⟨hevent, howner, hmem⟩ := hrecord handle hhandle
  exact ⟨hevent, howner, hhandles handle hmem⟩

theorem of_le (ht : t.Mirrors handles m) {m' : StoreView}
    (hm : ∀ id e, m' id = some e → m id = some e) : t.Mirrors handles m' :=
  fun id e he => ht id e (hm id e he)

end BindingTable.Mirrors

namespace Standing

variable {s : SessionId} {t : Thread} {st : StoreId} {v v' : Standing} {past : List Exchange}
variable {m : StoreView}

def since (v : Standing) (past : List Exchange) : List Exchange := v.exchanges.drop past.length

/-- The table mirrors `m`, as long as the engine has been fair since `past`. -/
structure Mirrors (past : List Exchange) (m : StoreView) (v : Standing) : Prop where
  grown : past <+: v.exchanges
  mirrors : Fair (v.since past) → v.bindings.Mirrors ((v.since past).filterMap issued) m

theorem since_asked (hpast : past <+: v.exchanges) (q : EngineRequest)
    (x : Except EngineError q.Answer) : (v.asked q x).since past = v.since past ++ [⟨q, x⟩] :=
  List.drop_append_of_le_length hpast.length_le

theorem since_prefix (hgrown : v.exchanges <+: v'.exchanges) (hpast : past <+: v.exchanges) :
    v.since past <+: v'.since past := by
  obtain ⟨added, hadded⟩ := hgrown
  simp only [since]
  rw [← hadded, List.drop_append_of_le_length hpast.length_le]
  exact List.prefix_append _ _

namespace Mirrors

theorem nothing (hpast : past <+: v.exchanges) : Mirrors past (fun _ => none) v :=
  ⟨hpast, fun _ _ _ he => by cases he⟩

theorem of_le (hm : Mirrors past m v) {m' : StoreView} (hle : ∀ id e, m' id = some e → m id = some e) :
    Mirrors past m' v := ⟨hm.grown, fun hfair => (hm.mirrors hfair).of_le hle⟩

/-- What is asked besides leaves the mirror as it is. -/
theorem of_grown (hm : Mirrors past m v) (hgrown : v.exchanges <+: v'.exchanges)
    (hrecords : v'.bindings.records = v.bindings.records)
    (howners : v'.bindings.owners = v.bindings.owners) : Mirrors past m v' := by
  have hlead := since_prefix hgrown hm.grown
  refine ⟨hm.grown.trans hgrown, fun hfair => ?_⟩
  have hold := (hm.mirrors (hfair.of_prefix hlead)).mono
    (hlead.sublist.filterMap issued).subset
  simpa only [BindingTable.Mirrors, BindingTable.get?, BindingTable.owner?, hrecords, howners]
    using hold

theorem bound (hm : Mirrors past m v) (e : BreakEvent) (a : Mood) :
    Mirrors past (m.put e) (v.bound e a) := by
  refine ⟨hm.grown.trans (List.prefix_append _ _), fun hfair => ?_⟩
  have hsince : (v.bound e a).since past = v.since past ++ [⟨.insert e, a (.insert e)⟩] :=
    since_asked hm.grown _ _
  have hold := hm.mirrors (hfair.of_prefix (hsince ▸ List.prefix_append _ _))
  have hissued : ((v.bound e a).since past).filterMap issued =
      (v.since past).filterMap issued ++ (BindingRecord.ofAnswer e (a (.insert e))).handle.toList := by
    rw [hsince, List.filterMap_append, filterMap_insert]
  have hfresh := hfair.fresh
  rw [hissued] at hfresh ⊢
  have hinserted := hold.insert (r := .ofAnswer e (a (.insert e))) fun handle hhandle hmem => by
    rw [hhandle] at hfresh
    exact (List.nodup_append.mp hfresh).2.2 handle hmem handle (by simp) rfl
  rwa [BindingRecord.ofAnswer_breakEvent] at hinserted

theorem complied (hm : Mirrors past m v) {q : EngineRequest} {b : BindingTable} {m' : StoreView}
    (a : Mood) (hissued : ∀ x, issued ⟨q, x⟩ = none)
    (hok : Fair ((v.asked q (a q)).since past) →
      v.bindings.Mirrors ((v.since past).filterMap issued) m →
      b.Mirrors ((v.since past).filterMap issued) m')
    (herror : ∀ err, a q = .error err → Fair ((v.asked q (a q)).since past) →
      v.bindings.Mirrors ((v.since past).filterMap issued) m →
      v.bindings.Mirrors ((v.since past).filterMap issued) m') :
    Mirrors past m' (v.complied q a b) := by
  have hsince := since_asked hm.grown q (a q)
  have hsame : ((v.asked q (a q)).since past).filterMap issued = (v.since past).filterMap issued := by
    rw [hsince, List.filterMap_append]
    simp [hissued]
  have hgrown : past <+: (v.asked q (a q)).exchanges := hm.grown.trans (List.prefix_append _ _)
  have hold (hfair : Fair ((v.asked q (a q)).since past)) :=
    hm.mirrors (hfair.of_prefix (hsince ▸ List.prefix_append _ _))
  simp only [Standing.complied]
  split
  · refine ⟨hgrown, fun hfair => ?_⟩
    exact hsame ▸ hok hfair (hold hfair)
  · rename_i err herr
    refine ⟨hgrown, fun hfair => ?_⟩
    exact hsame ▸ herror err herr hfair (hold hfair)

theorem unbound (hm : Mirrors past m v) (id : BreakEventId) (a : Mood) :
    Mirrors past (m.erase id) (v.unbound id a) := by
  have herase (id' : BreakEventId) (e : BreakEvent) (he : m.erase id id' = some e) :
      m id' = some e := by
    simp only [StoreView.erase] at he
    split at he
    · cases he
    · exact he
  simp only [Standing.unbound]
  split
  · exact hm.of_le herase
  · split
    · exact ⟨hm.grown, fun hfair => (hm.mirrors hfair).remove id⟩
    · exact hm.complied a (fun _ => rfl) (fun _ hold => hold.remove id)
        (fun _ _ _ hold => hold.of_le herase)

theorem changed (hm : Mirrors past m v) {id : BreakEventId} {change : BindingHandle → EngineRequest}
    {f : BreakEvent → BreakEvent} (hknown : (m id).isSome)
    (hf : ∀ e, e.id = id → (f e).id = id) (hissued : ∀ handle x, issued ⟨change handle, x⟩ = none)
    (hrefuses : ∀ handle err, refusesChange ⟨change handle, .error err⟩ = true) (a : Mood) :
    Mirrors past (m.modify id f) (v.changed id change f a) := by
  simp only [Standing.changed]
  split
  · rename_i hnone
    exact ⟨hm.grown, fun hfair => (hm.mirrors hfair).modify_none fun r hr => by
      cases hnone.symm.trans hr⟩
  · rename_i r hr
    split
    · rename_i hhandle
      refine ⟨hm.grown, fun hfair => (hm.mirrors hfair).modify_none fun r' hr' => ?_⟩
      rwa [← Option.some.inj (hr.symm.trans hr')]
    · rename_i handle hhandle
      refine hm.complied a (hissued handle) (fun _ hold => ?_) (fun err herr hfair _ => ?_)
      · exact hold.change hr hknown (hf _ (BindingTable.id_of_get? hr))
      · have hrefused := hfair.changed ⟨change handle, a (change handle)⟩ (by
          rw [since_asked hm.grown]
          simp)
        rw [herr, hrefuses handle err] at hrefused
        cases hrefused

theorem followed (hm : Mirrors past m v) {a : Announcement} (hstarted : v.started = true)
    (hidle : v.bindings.isEditing t = false) (hfits : m.Fits a) (mood : Mood) :
    Mirrors past (m.told a) (v.followed t a mood) := by
  simp only [Standing.followed]
  rw [if_pos hstarted]
  obtain ⟨change, e⟩ := a
  cases change with
  | added =>
      simp only [hidle]
      exact hm.bound e mood
  | removed =>
      simp only [hidle]
      exact hm.unbound e.id mood
  | modified =>
      refine hm.changed hfits ?_ ?_ ?_ mood
      · exact fun _ _ => rfl
      · exact fun _ _ => rfl
      · exact fun _ _ => rfl
  | enableChanged =>
      refine hm.changed hfits ?_ ?_ ?_ mood
      · exact fun _ hid => hid
      · exact fun _ _ => rfl
      · exact fun _ _ => rfl
  | statusChanged => exact hm

/-- A session that hears of changes follows them all. -/
theorem told {as : List Announcement} (hchain : Chain (Announced s t st) as v v')
    (hm : Mirrors past m v) (hhooks : hooks s (v.store st) ≠ []) (hstarted : v.started = true)
    (hidle : v.bindings.isEditing t = false) (hfits : m.FitsAll as) :
    Mirrors past (m.toldAll as) v' := by
  induction hchain generalizing m with
  | nil v => exact hm
  | @cons a rest v v' v'' hx hrest ih =>
      simp only [Announced] at hx
      rw [if_neg hhooks] at hx
      obtain ⟨mood, rfl⟩ := hx
      have hdealt := Dealt.followed t a mood v
      refine ih (hm.followed hstarted hidle hfits.1 mood) ?_ (hdealt.started.trans hstarted) ?_ hfits.2
      · rwa [hdealt.store]
      · simp only [BindingTable.isEditing]
        rwa [hdealt.openEdits]

theorem boundAll {es : List BreakEvent} (hchain : BoundAll es v v') (hm : Mirrors past m v) :
    Mirrors past (m.toldAll (es.map (⟨.added, ·⟩))) v' := by
  simp only [BoundAll] at hchain
  induction hchain generalizing m with
  | nil v => exact hm
  | cons hx hrest ih =>
      obtain ⟨mood, rfl⟩ := hx
      exact ih (hm.bound _ mood)

end Mirrors

def view (v : Standing) : StoreView :=
  match v.session.store with
  | none => fun _ => none
  | some st => (v.store st).view

structure Mirrored (past : List Exchange) (v : Standing) : Prop where
  grown : past <+: v.exchanges
  mirrors : v.started = true → Mirrors past v.view v

theorem view_of_none (hnone : v.session.store = none) : v.view = fun _ => none := by
  simp only [view]
  rw [hnone]

theorem view_of_some (hsome : v.session.store = some st) : v.view = (v.store st).view := by
  simp only [view]
  rw [hsome]

theorem view_putStore_of_not_attached {x : BreakpointStore Listener} (hst : ¬ v.Attached st) :
    (v.putStore st x).view = v.view := by
  have hstore (st' : StoreId) (hst' : v.session.store = some st') :
      (v.putStore st x).store st' = v.store st' := by
    rw [store_putStore, if_neg]
    rintro ⟨rfl, hlt⟩
    exact hst ⟨hst', hlt⟩
  cases hsome : v.session.store with
  | none =>
      have hnone : (v.putStore st x).session.store = none := hsome
      rw [view_of_none hnone, view_of_none hsome]
  | some st' =>
      have hsome' : (v.putStore st x).session.store = some st' := hsome
      rw [view_of_some hsome', view_of_some hsome, hstore st' hsome]

theorem view_of_attached (hst : v.Attached st) : v.view = (v.store st).view :=
  view_of_some hst.1

theorem view_of_dealt (hdealt : Dealt v v') : v'.view = v.view := by
  simp only [view]
  rw [hdealt.session]
  simp only [hdealt.store]

theorem view_of_spared (hspared : Spared v v') : v'.view = v.view := by
  simp only [view]
  rw [hspared.attached]
  simp only [hspared.store]

theorem Edited.view {x : BreakpointStore Listener × List Announcement} (hst : v.Attached st)
    (hedited : Edited s t st x v v') : v'.view = x.1.view := by
  have hst' : (v.putStore st x.1).Attached st := ⟨hst.1, by simpa [putStore] using hst.2⟩
  rw [view_of_dealt hedited.dealt, view_of_attached hst', store_putStore, if_pos ⟨rfl, hst.2⟩]

theorem Mirrored.revised {inPlace : Bool} (hv : Sound s v)
    (hrevised : Revised s t st inPlace v v') (hm : Mirrored past v) : Mirrored past v' := by
  by_cases hst : v.Attached st
  · obtain ⟨x, hx, hedited⟩ := hrevised
    have hdealt := hedited.dealt
    refine ⟨hm.grown.trans hdealt.grown, fun hstarted => ?_⟩
    have hstarted' : v.started = true := hdealt.started.symm.trans hstarted
    have hm' : Mirrors past (v.store st).view (v.putStore st x.1) := by
      have hmirrors := hm.mirrors hstarted'
      rw [view_of_attached hst] at hmirrors
      exact ⟨hmirrors.grown, hmirrors.mirrors⟩
    rw [hedited.view hst, hx.replay]
    exact hm'.told hedited (hv.heard hst hx.listeners) hstarted' (hv.isEditing t) hx.fits
  · obtain ⟨x, rfl⟩ := hrevised.unheard (hv.others st hst)
    refine ⟨hm.grown, fun hstarted => ?_⟩
    rw [view_putStore_of_not_attached hst]
    exact ⟨hm.grown, (hm.mirrors hstarted).mirrors⟩

theorem Mirrored.revisions {inPlace : Bool} (hv : Sound s v)
    (hrevisions : Revisions s t st inPlace v v') (hm : Mirrored past v) : Mirrored past v' := by
  induction hrevisions with
  | refl => exact hm
  | tail hfirst hlast ih => exact ih.revised (hv.revisions hfirst) hlast

theorem view_subscribed (hstore : v.session.store = some st) :
    (v.subscribed s st).view = (v.store st).view := by
  have hstore' : (v.subscribed s st).session.store = some st := hstore
  rw [view_of_some hstore', store_subscribed]
  split <;> rfl

/-- When all that a store holds was bound, the table mirrors the store. -/
theorem Mirrors.boundStore (hdistinct : (v.store st).Distinct)
    (hbound : BoundAll (v.store st).events v v') (hpast : past <+: v.exchanges) :
    Mirrors past (v.store st).view v' := by
  refine ((Mirrors.nothing hpast).boundAll hbound).of_le fun id e he => ?_
  obtain rfl := BreakpointStore.id_of_get? he
  exact StoreView.toldAll_added_of_mem _ hdistinct (BreakpointStore.mem_of_get? he)

theorem Mirrored.swapped {new : Option StoreId} (hv : Sound s v)
    (hswapped : Swapped s t new v v') (hpast : past <+: v.exchanges) : Mirrored past v' := by
  have htended := Tended.swapped hswapped
  have hstore := hswapped.store
  obtain ⟨v₁, hletgo, hattach⟩ := hswapped
  have hpast₁ : past <+: v₁.exchanges := hpast.trans (Tended.letGo hletgo).grown
  have hunique := (hletgo.clear hv.toHooked).2.2.2 hv.unique
  refine ⟨hpast.trans htended.grown, fun hstarted => ?_⟩
  cases new with
  | none =>
      subst hattach
      exact Mirrors.nothing hpast₁
  | some st =>
      obtain ⟨v₂, hbound, rfl⟩ := hattach
      have hstore₂ : v₂.session.store = some st := hstore
      have hdealt := hbound.dealt
      have hstarted₁ : (v₁.pointedAt (some st)).started = true := hdealt.started.symm.trans hstarted
      simp only [BoundIfStarted] at hbound
      rw [if_pos hstarted₁] at hbound
      have hmirrors := Mirrors.boundStore (v := v₁.pointedAt (some st)) (hunique st) hbound hpast₁
      rw [view_subscribed hstore₂, hdealt.store]
      exact ⟨hmirrors.grown, hmirrors.mirrors⟩

/-- A store that a session makes for itself holds nothing. -/
theorem Provided.view (hprovided : Provided s t v st v') : v'.view = v.view := by
  simp only [Provided] at hprovided
  split at hprovided
  · rw [hprovided.2]
  · rename_i hnone
    have hnone' : v.withNewStore.session.store = none := hnone
    obtain ⟨rfl, hprovided⟩ := hprovided
    split at hprovided
    · rw [hprovided, view_of_none hnone', view_of_none hnone]
    · obtain ⟨v₁, hswapped, rfl⟩ := hprovided
      have hstore := hswapped.store
      obtain ⟨v₂, hletgo, v₃, hbound, rfl⟩ := hswapped
      have hstore₃ : v₃.session.store = some ⟨v.stores.size⟩ := hstore
      simp only [LetGo, hnone'] at hletgo
      have hnothing : v.store ⟨v.stores.size⟩ = {} := store_of_size_le v (Nat.le_refl _)
      change (v₃.subscribed s ⟨v.stores.size⟩).view = v.view
      rw [view_subscribed hstore₃, hbound.dealt.store, hletgo, view_of_none hnone]
      change (v.withNewStore.store ⟨v.stores.size⟩).view = _
      rw [store_withNewStore, hnothing]
      rfl

theorem Mirrored.provided (hprovided : Provided s t v st v') (hm : Mirrored past v) :
    Mirrored past v' := by
  obtain ⟨hbindings, hexchanges⟩ := hprovided.idle
  refine ⟨hexchanges ▸ hm.grown, fun hstarted => ?_⟩
  have hstarted' : v.started = true := (Tended.provided hprovided).started.symm.trans hstarted
  rw [hprovided.view]
  exact (hm.mirrors hstarted').of_grown (hexchanges ▸ List.prefix_refl _) (by rw [hbindings])
    (by rw [hbindings])

/-- A start makes a new beginning. -/
theorem Mirrored.of_started (hv : Sound s v) (hstarted : Started s t v v') :
    Mirrored v.exchanges v' := by
  obtain ⟨v₁, st, v₂, hspared, hprovided, hbound⟩ := hstarted
  have hv₂ := (hv.of_spared hspared).initialized.provided hprovided
  have hpast : v.exchanges <+: v₂.exchanges :=
    hspared.grown.trans (Tended.provided hprovided).grown
  have hmirrors := Mirrors.boundStore (hv₂.unique st) hbound hpast
  refine ⟨hmirrors.grown, fun _ => hmirrors.of_le fun id e he => ?_⟩
  have hdealt := BoundAll.dealt hbound
  rw [view_of_dealt hdealt] at he
  simp only [view] at he
  cases hst' : v₂.session.store with
  | none =>
      rw [hst'] at he
      cases he
  | some st' =>
      rw [hst', hprovided.store hst'] at he
      exact he

theorem Mirrored.of_spared (hspared : Spared v v') (hm : Mirrored past v) : Mirrored past v' := by
  refine ⟨hm.grown.trans hspared.grown, fun hstarted => ?_⟩
  rw [view_of_spared hspared]
  exact (hm.mirrors (hspared.started hstarted)).of_grown hspared.grown (by rw [hspared.bindings])
    (by rw [hspared.bindings])

theorem Mirrors.moved (hm : Mirrors past m v) {e : BreakEvent} (hknown : (m e.id).isSome) :
    Mirrors past (m.modify e.id fun _ => e) (v.moved e) := by
  simp only [Standing.moved]
  split
  · rename_i hnone
    exact ⟨hm.grown, fun hfair => (hm.mirrors hfair).modify_none fun r hr => by
      cases hnone.symm.trans hr⟩
  · rename_i r hr
    exact ⟨hm.grown, fun hfair => (hm.mirrors hfair).change hr hknown rfl⟩

/-- A session is deaf to the news of its own adjustment. -/
theorem Chain.deaf {a : LineAdjustment} (hchain : Chain (Announced s t st) a.announcements v v')
    (hediting : v.bindings.isEditing t = true) : v' = v := by
  have hfollowed (change : Change) (e : BreakEvent) (hchange : change = .added ∨ change = .removed)
      {v₁ : Standing} (hv₁ : Announced s t st ⟨change, e⟩ v v₁) : v₁ = v := by
    simp only [Announced] at hv₁
    split at hv₁
    · exact hv₁
    · obtain ⟨m, rfl⟩ := hv₁
      simp only [Standing.followed]
      rcases hchange with rfl | rfl <;> simp [hediting]
  cases hchain with
  | cons hremoved hrest =>
      obtain rfl := hfollowed .removed a.old (.inr rfl) hremoved
      cases hrest with
      | cons hadded hnil =>
          obtain rfl := hfollowed .added a.new (.inl rfl) hadded
          cases hnil
          rfl

theorem attached_of_get? {id : BreakEventId} {e : BreakEvent} (hstore : v.session.store = some st)
    (he : (v.store st).get? id = some e) : v.Attached st := by
  refine ⟨hstore, Nat.lt_of_not_le fun hle => ?_⟩
  rw [store_of_size_le v hle] at he
  cases he

theorem moved_putStore (e : BreakEvent) (x : BreakpointStore Listener) (v : Standing) :
    (v.putStore st x).moved e = (v.moved e).putStore st x := by
  have hget : (v.putStore st x).bindings.get? e.id = v.bindings.get? e.id := rfl
  simp only [Standing.moved]
  rw [hget]
  cases v.bindings.get? e.id <;> rfl

/-- An adjustment moves an event of the attached store and its record alike. -/
theorem Adjusted.moved {id : BreakEventId} {line : Nat}
    (hadjusted : Adjusted s t st id line v v') (hstore : v.session.store = some st) :
    v' = v ∨ ∃ e x, (v.view e.id).isSome ∧ v' = (v.moved e).putStore st x ∧
      v'.view = v.view.modify e.id fun _ => e := by
  simp only [Adjusted] at hadjusted
  split at hadjusted
  · exact .inl hadjusted
  · exact .inl hadjusted
  · rename_i x a hadjust
    obtain ⟨v₁, hchain, rfl⟩ := hadjusted
    rcases BreakpointStore.adjust_cases hadjust with ⟨-, hnone⟩ | ⟨e, before, he, -, -, hx, ha⟩
    · cases hnone
    · cases ha
      obtain rfl := BreakpointStore.id_of_get? he
      have hst := attached_of_get? hstore he
      have hmoved := Dealt.moved (e.withLine line) ((v.editing t).putStore st x)
      have hediting : (((v.editing t).putStore st x).moved (e.withLine line)).bindings.isEditing t =
          true := by
        simp only [BindingTable.isEditing]
        rw [hmoved.openEdits]
        simp [editing, putStore, rebind, BindingTable.beginEdit]
      obtain rfl := Chain.deaf hchain hediting
      refine .inr ⟨e.withLine line, x, ?_, ?_, ?_⟩
      · rw [view_of_attached hst, BreakEvent.withLine_id]
        simp [BreakpointStore.view, he]
      · change (((v.editing t).putStore st x).moved (e.withLine line)).doneEditing t = _
        rw [moved_putStore, ← moved_editing t (e.withLine line) v]
        rfl
      · have hst' : ((v.editing t).putStore st x).Attached st :=
          ⟨hst.1, by simpa [putStore, editing, rebind] using hst.2⟩
        change (((v.editing t).putStore st x).moved (e.withLine line)).view = _
        rw [view_of_dealt hmoved, view_of_attached hst', view_of_attached hst, store_putStore,
          if_pos ⟨rfl, hst.2⟩, hx, BreakpointStore.view_replace, BreakpointStore.view_remember]

theorem Mirrored.adjusted {id : BreakEventId} {line : Nat}
    (hadjusted : Adjusted s t st id line v v') (hstore : v.session.store = some st)
    (hm : Mirrored past v) : Mirrored past v' := by
  rcases hadjusted.moved hstore with rfl | ⟨e, x, hknown, rfl, hview⟩
  · exact hm
  · have hdealt := Dealt.moved e v
    refine ⟨hm.grown.trans hdealt.grown, fun hstarted => ?_⟩
    have hmirrors := (hm.mirrors (hdealt.started.symm.trans hstarted)).moved hknown
    rw [hview]
    exact ⟨hmirrors.grown, hmirrors.mirrors⟩

theorem Mirrored.dispatched (hv : Sound s v) (hdispatched : Dispatched s t v v')
    (hm : Mirrored past v) : Mirrored past v' := by
  rcases hdispatched with hspared | ⟨v₁, v₂, hspared, hswapped, hspared'⟩
  · exact hm.of_spared hspared
  · have hm₁ := hm.of_spared hspared
    exact (Mirrored.swapped (hv.of_spared hspared) hswapped hm₁.grown).of_spared hspared'

/-- Any operation but a start keeps the mirror of a session that does not retry. -/
theorem Mirrored.effect {o : Operation} (hv : Sound s v)
    (hretry : v.session.config.autoRetry = false) (ho : ∀ thread, o ≠ .started thread)
    (heffect : Effect s t v o v') (hm : Mirrored past v) : Mirrored past v' := by
  cases o with
  | command k => exact hm.dispatched hv heffect
  | started thread => exact absurd rfl (ho thread)
  | fileLoaded file =>
      simp only [Effect, hretry] at heffect
      exact heffect ▸ hm
  | fileUnloaded file =>
      simp only [Effect, hretry] at heffect
      exact heffect ▸ hm
  | setStatus handle status message =>
      obtain rfl : v' = _ := heffect
      refine ⟨hm.grown, fun hstarted => ⟨hm.grown, fun hfair => ?_⟩⟩
      exact ((hm.mirrors hstarted).mirrors hfair).setStatus handle status message
  | adjust id line =>
      simp only [Effect] at heffect
      split at heffect
      · exact heffect ▸ hm
      · rename_i hstore
        exact hm.adjusted heffect hstore
  | attach new => exact Mirrored.swapped hv heffect hm.grown
  | breakpoints =>
      obtain ⟨st, hprovided⟩ := heffect
      exact hm.provided hprovided
  | edit st e => exact hm.revisions hv (Effect.revisions rfl heffect)
  | adjustLine st id line => exact hm.revisions hv (Effect.revisions rfl heffect)
  | resetAdjusted st => exact hm.revisions hv heffect
  | _ => exact hm.of_spared heffect

theorem Mirrored.turn {turn : Turn} (hv : Sound s v) (hretry : v.session.config.autoRetry = false)
    (hturn : TurnEffect s v turn v') (hm : Mirrored past v) :
    Mirrored (if turn.starts then v.exchanges else past) v' := by
  cases hstarts : turn.starts with
  | true =>
      obtain ⟨t, thread, rfl⟩ := Turn.eq_of_starts hstarts
      exact Mirrored.of_started hv hturn
  | false =>
      cases turn with
      | work => exact hm.dispatched hv hturn
      | choose m hchoice => exact hm.of_spared hturn
      | perform t o =>
          have ho (thread : Option ThreadInfo) : o ≠ .started thread := by
            rintro rfl
            cases hstarts
          exact hm.effect hv hretry ho hturn

end Standing

/-- A world, and how much the engine had been asked when it was started last. -/
structure Watch (σ : Type) where
  world : World σ
  mark : Nat := 0

namespace Watch

variable {σ : Type} (h : Host σ) (L : Ledger σ)

def after (x : Watch σ) (turn : Turn) : Watch σ where
  world := turn.after h L.session x.world
  mark := if turn.starts then (L.entries x.world.host).length else x.mark

def afterAll (x : Watch σ) (turns : List Turn) : Watch σ := turns.foldl (after h L) x

def recent (x : Watch σ) : List Exchange := (L.entries x.world.host).drop x.mark

end Watch

/-- Each event of the attached store has one record. If that has a handle, it is up to date and
found by its handle. -/
def World.Coherent {σ : Type} (w : World σ) (s : SessionId) : Prop :=
  ∀ st, (w.session s).store = some st → ∀ e ∈ (w.store st).events,
    ∃ r, (w.session s).bindings.records.filter (·.id == e.id) = [r] ∧
      ∀ handle, r.handle = some handle →
        r.breakEvent = e ∧ (w.session s).bindings.byHandle? handle = some r

namespace Ledger

variable {σ : Type} {L : Ledger σ} {h : Host σ}

structure Watches (L : Ledger σ) (config : SessionConfig) (x : Watch σ) (v : Standing) : Prop
    extends L.Knows config x.world v where
  mirrored : ∃ past : List Exchange, past.length = x.mark ∧ Standing.Mirrored past v

theorem Watches.turn (quiet : L.Quiet h) {config : SessionConfig} (hretry : config.autoRetry = false)
    {x : Watch σ} {v : Standing} (hx : L.Watches config x v) (turn : Turn) :
    ∃ v', L.Watches config (x.after h L turn) v' := by
  obtain ⟨v', hv', hturn⟩ := hx.toKnows.turn quiet turn
  obtain ⟨past, hlength, hmirrored⟩ := hx.mirrored
  have hretry' : v.session.config.autoRetry = false := by rw [hx.configured, hretry]
  refine ⟨v', hv', _, ?_, hmirrored.turn hx.sound hretry' hturn⟩
  simp only [Watch.after, hx.seen.exchanges]
  split
  · rfl
  · exact hlength

theorem Watches.afterAll (quiet : L.Quiet h) {config : SessionConfig}
    (hretry : config.autoRetry = false) (turns : List Turn) {x : Watch σ} {v : Standing}
    (hx : L.Watches config x v) : ∃ v', L.Watches config (x.afterAll h L turns) v' := by
  induction turns generalizing x v with
  | nil => exact ⟨v, hx⟩
  | cons turn rest ih =>
      obtain ⟨v', hv'⟩ := hx.turn quiet hretry turn
      exact ih hv'

theorem Watches.coherent {config : SessionConfig} {x : Watch σ} {v : Standing}
    (hx : L.Watches config x v) (hstarted : (x.world.session L.session).lifecycle.started = true)
    (hfair : Exchange.Fair (x.recent L)) : x.world.Coherent L.session := by
  obtain ⟨past, hlength, hmirrored⟩ := hx.mirrored
  have hrecent : x.recent L = v.since past := by
    simp only [Watch.recent, Standing.since]
    rw [hx.seen.exchanges, hlength]
  rw [hx.seen.world_session] at hstarted
  have htable := (hmirrored.mirrors hstarted).mirrors (hrecent ▸ hfair)
  intro st hst e he
  rw [hx.seen.world_session] at hst ⊢
  rw [hx.seen.world_store] at he
  have hview : v.view e.id = some e := by
    simp only [Standing.view]
    rw [hst]
    exact BreakpointStore.get?_of_mem (hx.sound.unique st) he
  obtain ⟨r, hr, hrecord⟩ := htable e.id e hview
  refine ⟨r, BindingTable.filter_of_get? hx.sound.distinct hr, fun handle hhandle => ?_⟩
  obtain ⟨hevent, howner, -⟩ := hrecord handle hhandle
  refine ⟨hevent, ?_⟩
  simp only [BindingTable.byHandle?]
  rw [howner]
  exact hr

/-- Whatever happens to a session that does not retry: while it is started, and as long as its
engine has made all changes that it was asked for since the start and given no handle out twice, its
table agrees with the attached store. -/
theorem coherent_while_started (quiet : L.Quiet h) {w : World σ} {config : SessionConfig}
    (hopened : w.Opened L.session config) (hretry : config.autoRetry = false) (turns : List Turn)
    (hstarted : (((Watch.mk w 0).afterAll h L turns).world.session L.session).lifecycle.started = true)
    (hfair : Exchange.Fair (((Watch.mk w 0).afterAll h L turns).recent L)) :
    ((Watch.mk w 0).afterAll h L turns).world.Coherent L.session := by
  obtain ⟨v, output, hv, hsession⟩ := knows_of_opened hopened
  have hx : L.Watches config ⟨w, 0⟩ v := by
    refine ⟨hv, [], rfl, List.nil_prefix, fun hstarted => ?_⟩
    simp only [Standing.started] at hstarted
    rw [hsession] at hstarted
    cases hstarted
  obtain ⟨v', hx'⟩ := hx.afterAll quiet hretry turns
  exact hx'.coherent hstarted hfair

def changedAfterRefusal : Watch Scripted.State :=
  (Watch.mk (Scripted.opened {}) 0).afterAll (Scripted.host Scripted.reluctant) Scripted.ledger <|
  Scripted.calls
    [.breakpoints, .edit ⟨0⟩ (.add (Scripted.breakpoint 1 10)),
      .edit ⟨0⟩ (.add (Scripted.breakpoint 2 20)),
      .started none, .edit ⟨0⟩ (.condition ⟨1⟩ (some "x > 1")), .adjust ⟨2⟩ 21,
      .edit ⟨0⟩ (.enable ⟨2⟩ false)]

theorem coherent_after_refusal :
    (changedAfterRefusal.world.session Scripted.self).bindings.handleCount = 1 ∧
      (changedAfterRefusal.world.store ⟨0⟩).size = 2 ∧
      changedAfterRefusal.world.Coherent Scripted.self :=
  ⟨by decide +kernel, by decide +kernel,
    coherent_while_started (Scripted.quiet Scripted.reluctant) (Scripted.opened_self {}) rfl _
      (by decide +kernel) ⟨by decide +kernel, by decide +kernel⟩⟩

end Ledger

end DebugSession
