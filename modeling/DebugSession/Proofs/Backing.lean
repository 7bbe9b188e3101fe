import DebugSession.Proofs.Leak

namespace DebugSession

open Exchange

theorem StoreView.isSome_modify (m : StoreView) (id : BreakEventId) (f : BreakEvent → BreakEvent)
    (id' : BreakEventId) : (m.modify id f id').isSome = (m id').isSome := by
  simp only [modify]
  split
  · exact Option.isSome_map
  · rfl

def BindingTable.Within (t : BindingTable) (m : StoreView) : Prop :=
  ∀ id, (t.get? id).isSome → (m id).isSome

namespace BindingTable.Within

variable {t : BindingTable} {m : StoreView}

theorem put (ht : t.Within m) (e : BreakEvent) : t.Within (m.put e) := by
  intro id hid
  simp only [StoreView.put]
  split
  · rfl
  · exact ht id hid

theorem modify (ht : t.Within m) (id : BreakEventId) (f : BreakEvent → BreakEvent) :
    t.Within (m.modify id f) := by
  intro id' hid
  rw [StoreView.isSome_modify]
  exact ht id' hid

theorem insert (ht : t.Within m) {r : BindingRecord} (hr : (m r.id).isSome) :
    (t.insert r).Within m := by
  intro id hid
  rw [get?_insert] at hid
  split at hid
  · rename_i heq
    rwa [heq]
  · exact ht id hid

theorem erase (ht : t.Within m) (id : BreakEventId) : (t.remove id).Within (m.erase id) := by
  intro id' hid
  rw [get?_remove] at hid
  simp only [StoreView.erase]
  split at hid
  · cases hid
  · rename_i hne
    rw [if_neg hne]
    exact ht id' hid

theorem remove (ht : t.Within m) (id : BreakEventId) : (t.remove id).Within m := by
  intro id' hid
  rw [get?_remove] at hid
  split at hid
  · cases hid
  · exact ht id' hid

theorem setStatus (ht : t.Within m) (handle : BindingHandle) (status : BindingStatus)
    (message : Option String) : (t.setStatus handle status message).Within m := by
  intro id hid
  rw [get?_setStatus, Option.isSome_map] at hid
  exact ht id hid

end BindingTable.Within

namespace Standing

variable {s : SessionId} {t : Thread} {st : StoreId} {v v' : Standing} {m : StoreView}

theorem bound_within (ht : v.bindings.Within m) {e : BreakEvent} (he : (m e.id).isSome) (a : Mood) :
    (v.bound e a).bindings.Within m := by
  apply ht.insert
  rwa [BindingRecord.id, BindingRecord.ofAnswer_breakEvent]

theorem changed_within (ht : v.bindings.Within m) {id : BreakEventId}
    {change : BindingHandle → EngineRequest} {f : BreakEvent → BreakEvent}
    (hf : ∀ e, e.id = id → (f e).id = id) (a : Mood) :
    (v.changed id change f a).bindings.Within m := by
  simp only [changed]
  cases hr : v.bindings.get? id with
  | none => exact ht
  | some r =>
      obtain ⟨e, handle, status, message⟩ := r
      cases handle with
      | none => exact ht
      | some handle =>
          have hid : (f e).id = id := hf e (BindingTable.id_of_get? hr)
          simp only [complied]
          split
          · refine ht.insert (ht _ ?_)
            rw [BindingRecord.id, hid, hr]
            rfl
          · exact ht

theorem moved_within (ht : v.bindings.Within m) (e : BreakEvent) : (v.moved e).bindings.Within m := by
  simp only [moved]
  cases hr : v.bindings.get? e.id with
  | none => exact ht
  | some r => exact ht.insert (ht e.id (hr ▸ rfl))

theorem followed_within (ht : v.bindings.Within m) {a : Announcement} {mood : Mood}
    (hstarted : v.started = true) (hidle : v.bindings.isEditing t = false)
    (haccepted : Accepted v (v.followed t a mood)) :
    (v.followed t a mood).bindings.Within (m.told a) := by
  obtain ⟨change, e⟩ := a
  simp only [followed, if_pos hstarted, hidle] at haccepted ⊢
  cases change with
  | added => exact bound_within (ht.put e) (by simp [StoreView.put]) mood
  | removed =>
      change (v.unbound e.id mood).bindings.Within (m.erase e.id)
      rw [unbound_bindings haccepted]
      exact ht.erase e.id
  | modified => exact changed_within (ht.modify e.id _) (fun _ _ => rfl) mood
  | enableChanged =>
      refine changed_within (ht.modify e.id _) ?_ mood
      exact fun _ hid => hid
  | statusChanged => exact ht

theorem boundAll_within {es : List BreakEvent} (hbound : BoundAll es v v')
    (hes : ∀ e ∈ es, (m e.id).isSome) (ht : v.bindings.Within m) : v'.bindings.Within m := by
  simp only [BoundAll] at hbound
  induction hbound with
  | nil v => exact ht
  | @cons e rest v v' v'' hx hrest ih =>
      obtain ⟨a, rfl⟩ := hx
      have he : (m e.id).isSome := hes e List.mem_cons_self
      exact ih (fun e' he' => hes e' (List.mem_cons_of_mem e he')) (bound_within ht he a)

theorem BoundAll.isSome_get? {es : List BreakEvent} (hbound : BoundAll es v v') {id : BreakEventId}
    (hid : (v.bindings.get? id).isSome) : (v'.bindings.get? id).isSome := by
  simp only [BoundAll] at hbound
  induction hbound with
  | nil v => exact hid
  | @cons e rest v v' v'' hx hrest ih =>
      obtain ⟨a, rfl⟩ := hx
      apply ih
      change ((v.bindings.insert _).get? id).isSome
      rw [BindingTable.get?_insert]
      split
      · rfl
      · exact hid

def Backed (v : Standing) : Prop := v.bindings.Within v.view

theorem isSome_view {id : BreakEventId} :
    (v.view id).isSome ↔ ∃ e ∈ v.attachedEvents, e.id = id := by
  simp only [view, attachedEvents]
  cases v.session.store with
  | none => simp
  | some st => simp [BreakpointStore.view, BreakpointStore.get?, List.find?_isSome]

theorem mem_attachedEvents {id : BreakEventId} (hid : (v.view id).isSome) :
    id ∈ v.attachedEvents.map (·.id) := List.mem_map.mpr (isSome_view.mp hid)

theorem Sound.mem_records (hv : Sound s v) {r : BindingRecord} :
    r ∈ v.bindings.records ↔ v.bindings.get? r.id = some r := by
  constructor
  · exact fun hr => BindingTable.get?_of_mem hv.distinct hr
  · exact fun hr => BindingTable.mem_of_get? hr

theorem Backed.of_same (hbacked : v.Backed) (hbindings : v'.bindings = v.bindings)
    (hview : v'.view = v.view) : v'.Backed := by
  simp only [Backed]
  rwa [hbindings, hview]

theorem Backed.of_dealt (hdealt : Dealt v v') (hwithin : v'.bindings.Within v.view) : v'.Backed := by
  simp only [Backed]
  rwa [view_of_dealt hdealt]

theorem LetGo.empty (hv : Hooked s v) (hletgo : LetGo s t v v') (haccepted : Accepted v v')
    (hbacked : v.Backed) (id : BreakEventId) : v'.bindings.get? id = none := by
  obtain ⟨u, hunbound, hbindings, hexchanges⟩ := hletgo.unbound hv
  have haccepted' : Accepted v.detached u := by
    simp only [Accepted, since] at haccepted ⊢
    rwa [← hexchanges]
  rw [hbindings, hunbound.get? haccepted']
  split
  · rfl
  · rename_i hid
    rw [← Option.not_isSome_iff_eq_none]
    exact fun hr => hid (mem_attachedEvents (hbacked id hr))

theorem Backed.swapped {new : Option StoreId} (hbacked : v.Backed) (hv : Sound s v)
    (hswapped : Swapped s t new v v') (haccepted : Accepted v v') : v'.Backed := by
  have hstore := hswapped.store
  obtain ⟨v₁, hletgo, hattach⟩ := hswapped
  have hgrown := (Tended.letGo hletgo).grown
  cases new with
  | none =>
      subst hattach
      intro id hid
      have hnone : v₁.bindings.get? id = none := hletgo.empty hv.toHooked haccepted hbacked id
      rw [show (v₁.pointedAt none).bindings.get? id = none from hnone] at hid
      cases hid
  | some st =>
      obtain ⟨v₂, hbound, rfl⟩ := hattach
      have hdealt := hbound.dealt
      have hnone := hletgo.empty hv.toHooked (haccepted.split hgrown hdealt.grown).1 hbacked
      have hstore₂ : v₂.session.store = some st := hstore
      have hempty : (v₁.pointedAt (some st)).bindings.Within (v₁.store st).view := by
        intro id hid
        rw [show (v₁.pointedAt (some st)).bindings.get? id = none from hnone id] at hid
        cases hid
      simp only [Backed]
      rw [view_subscribed hstore₂, hdealt.store]
      change v₂.bindings.Within (v₁.store st).view
      simp only [BoundIfStarted] at hbound
      split at hbound
      · refine boundAll_within hbound (fun e he => ?_) hempty
        exact List.find?_isSome.mpr ⟨e, he, beq_self_eq_true e.id⟩
      · rwa [hbound]

theorem Backed.started_iff (hstarted : Started s t v v') : v'.Backed ↔ v.Backed := by
  obtain ⟨v₁, st, v₂, hspared, hprovided, hbound⟩ := hstarted
  have hbindings : v₂.bindings = v.bindings := hprovided.idle.1.trans hspared.bindings
  have hview₁ : v₁.view = v.view := view_of_spared hspared
  have hview₂ : v₂.view = v.view := hprovided.view.trans hview₁
  have hview : v'.view = v.view := (view_of_dealt (BoundAll.dealt hbound)).trans hview₂
  simp only [Backed]
  rw [hview, ← hbindings]
  constructor
  · exact fun hbacked id hid => hbacked id (hbound.isSome_get? hid)
  · refine fun hbacked => boundAll_within hbound (fun e he => ?_) hbacked
    rw [← hview₂]
    exact isSome_view.mpr ⟨e, hprovided.attachedEvents ▸ he, rfl⟩

theorem Backed.provided (hbacked : v.Backed) (hprovided : Provided s t v st v') : v'.Backed :=
  hbacked.of_same hprovided.idle.1 hprovided.view

theorem Backed.of_spared (hbacked : v.Backed) (hspared : Spared v v') : v'.Backed :=
  hbacked.of_same hspared.bindings (view_of_spared hspared)

theorem Backed.dispatched (hbacked : v.Backed) (hv : Sound s v) (hdispatched : Dispatched s t v v')
    (haccepted : Accepted v v') : v'.Backed := by
  rcases hdispatched with hspared | ⟨v₁, v₂, hspared, hswapped, hspared'⟩
  · exact hbacked.of_spared hspared
  · have hgrown := (Tended.swapped hswapped).grown
    have haccepted' := (haccepted.split hspared.grown (hgrown.trans hspared'.grown)).2
    have hbacked₁ := hbacked.of_spared hspared
    have hbacked₂ := hbacked₁.swapped (hv.of_spared hspared) hswapped
      (haccepted'.split hgrown hspared'.grown).1
    exact hbacked₂.of_spared hspared'

theorem Backed.forgotten {rs : List BindingRecord} (hbacked : v.Backed)
    (hforgotten : Forgotten rs v v') : v'.Backed := by
  simp only [Forgotten] at hforgotten
  induction hforgotten with
  | nil v => exact hbacked
  | @cons r rest v v' v'' hx hrest ih =>
      subst hx
      exact ih (.of_dealt (Dealt.remove v r.id) (BindingTable.Within.remove hbacked r.id))

theorem Backed.adjusted {id : BreakEventId} {line : Nat} (hbacked : v.Backed)
    (hadjusted : Adjusted s t st id line v v') (hstore : v.session.store = some st) : v'.Backed := by
  rcases hadjusted.moved hstore with rfl | ⟨e, x, -, rfl, hview⟩
  · exact hbacked
  · simp only [Backed]
    rw [hview]
    exact moved_within (BindingTable.Within.modify hbacked e.id _) e

theorem Backed.reloaded {file : String} (hbacked : v.Backed)
    (hbound : BoundAll ((v.waiting file).map (·.breakEvent)) v v') : v'.Backed := by
  refine .of_dealt (BoundAll.dealt hbound) (boundAll_within hbound (fun e he => ?_) hbacked)
  obtain ⟨r, hr, rfl⟩ := List.mem_map.mp he
  apply hbacked
  -- The record need not be the one that is found under its identity.
  exact List.find?_isSome.mpr ⟨r, (List.mem_filter.mp hr).1, beq_self_eq_true r.id⟩

/-- But for edits, all that happens leaves the records backed. -/
theorem Backed.effect {o : Operation} (hbacked : v.Backed) (hv : Sound s v) (ho : o.edits = none)
    (heffect : Effect s t v o v') (haccepted : Accepted v v') : v'.Backed := by
  cases o with
  | command k => exact hbacked.dispatched hv heffect haccepted
  | started thread => exact (Backed.started_iff heffect).mpr hbacked
  | fileLoaded file =>
      simp only [Effect] at heffect
      split at heffect
      · exact hbacked.reloaded heffect
      · exact heffect ▸ hbacked
  | fileUnloaded file =>
      simp only [Effect] at heffect
      split at heffect
      · exact hbacked.forgotten heffect
      · exact heffect ▸ hbacked
  | setStatus handle status message =>
      obtain rfl : v' = _ := heffect
      exact BindingTable.Within.setStatus hbacked handle status message
  | adjust id line =>
      simp only [Effect] at heffect
      split at heffect
      · exact heffect ▸ hbacked
      · rename_i hstore
        exact hbacked.adjusted heffect hstore
  | attach new => exact hbacked.swapped hv heffect haccepted
  | breakpoints =>
      obtain ⟨st, hprovided⟩ := heffect
      exact hbacked.provided hprovided
  | edit st e | adjustLine st id line | resetAdjusted st => cases ho
  | _ => exact hbacked.of_spared heffect

theorem told_within {as : List Announcement} (hchain : Chain (Announced s t st) as v v')
    (hhooks : hooks s (v.store st) ≠ []) (hstarted : v.started = true)
    (hidle : v.bindings.isEditing t = false) (haccepted : Accepted v v')
    (ht : v.bindings.Within m) : v'.bindings.Within (m.toldAll as) := by
  induction hchain generalizing m with
  | nil v => exact ht
  | @cons a rest v v' v'' hx hrest ih =>
      simp only [Announced, if_neg hhooks] at hx
      obtain ⟨mood, rfl⟩ := hx
      have hdealt := Dealt.followed t a mood v
      have hgrown := (Chain.dealt hrest fun _ _ _ h => h.dealt).grown
      obtain ⟨hfirst, hlast⟩ := haccepted.split hdealt.grown hgrown
      refine ih ?_ (hdealt.started.trans hstarted) ?_ hlast
        (followed_within ht hstarted hidle hfirst)
      · rwa [hdealt.store]
      · rwa [BindingTable.isEditing, hdealt.openEdits]

theorem Backed.revisions {inPlace : Bool} (hbacked : v.Backed) (hv : Sound s v) (hst : v.Attached st)
    (hstarted : v.started = true) (hrevisions : Revisions s t st inPlace v v')
    (haccepted : Accepted v v') : v'.Backed := by
  induction hrevisions with
  | refl => exact hbacked
  | @tail v₁ v₂ hfirst hlast ih =>
      obtain ⟨haccepted₁, haccepted₂⟩ :=
        haccepted.split (Tended.revisions hfirst).grown (Tended.revised hlast).grown
      have hv₁ := hv.revisions hfirst
      have hst₁ := (Kept.revisions hfirst).attached.mpr hst
      have hstarted₁ := (Tended.revisions hfirst).started.trans hstarted
      have hbacked₁ := ih haccepted₁
      obtain ⟨x, hx, hedited⟩ := hlast
      simp only [Backed, hedited.view hst₁, hx.replay]
      refine told_within hedited (hv₁.heard hst₁ hx.listeners) hstarted₁ (hv₁.isEditing t)
        haccepted₂ ?_
      rwa [← view_of_attached hst₁]

theorem Revisions.unattached {inPlace : Bool} (hrevisions : Revisions s t st inPlace v v')
    (hv : Sound s v) (hst : ¬ v.Attached st) : v'.bindings = v.bindings ∧ v'.view = v.view := by
  induction hrevisions with
  | refl => exact ⟨rfl, rfl⟩
  | tail hfirst hlast ih =>
      have hst' := (not_congr (Kept.revisions hfirst).attached).mpr hst
      obtain ⟨x, rfl⟩ := hlast.unheard ((hv.revisions hfirst).others st hst')
      refine ⟨ih.1, ?_⟩
      rw [view_putStore_of_not_attached hst']
      exact ih.2

theorem Chain.unstarted {as : List Announcement} (hchain : Chain (Announced s t st) as v v')
    (hstarted : v.started = false) : v' = v := by
  induction hchain with
  | nil v => rfl
  | @cons a rest v v' v'' hx hrest ih =>
      obtain rfl := hx.ignored (.inr hstarted)
      exact ih hstarted

theorem Revisions.unstarted {inPlace : Bool} (hrevisions : Revisions s t st inPlace v v')
    (hstarted : v.started = false) :
    v'.bindings = v.bindings ∧ v'.exchanges = v.exchanges := by
  induction hrevisions with
  | refl => exact ⟨rfl, rfl⟩
  | tail hfirst hlast ih =>
      have hstarted' := (Tended.revisions hfirst).started.trans hstarted
      obtain ⟨x, -, hedited⟩ := hlast
      obtain rfl := Chain.unstarted hedited hstarted'
      exact ih

def Abandoned (turn : Turn) (v v' : Standing) : Prop :=
  turn.edits.isSome ∧ v.started = false ∧
    ∃ e ∈ v.attachedEvents, (v.bindings.get? e.id).isSome ∧ ∀ e' ∈ v'.attachedEvents, e'.id ≠ e.id

theorem Backed.edits_iff {turn : Turn} {inPlace : Bool} (hbacked : v.Backed) (hv : Sound s v)
    (hturn : turn.edits = some (st, inPlace)) (hrevisions : Revisions s t st inPlace v v')
    (haccepted : Accepted v v') : v'.Backed ↔ ¬ Abandoned turn v v' := by
  cases hstarted : v.started with
  | true =>
      refine iff_of_true ?_ fun habandoned => by cases hstarted.symm.trans habandoned.2.1
      by_cases hst : v.Attached st
      · exact hbacked.revisions hv hst hstarted hrevisions haccepted
      · obtain ⟨hbindings, hview⟩ := hrevisions.unattached hv hst
        exact hbacked.of_same hbindings hview
  | false =>
      have hbindings := (hrevisions.unstarted hstarted).1
      constructor
      · rintro hbacked' ⟨-, -, e, -, hrecord, hgone⟩
        obtain ⟨e', he', hid⟩ := isSome_view.mp (hbacked' e.id (hbindings ▸ hrecord))
        exact hgone e' he' hid
      · intro hnone id hid
        rw [hbindings] at hid
        obtain ⟨e, he, rfl⟩ := isSome_view.mp (hbacked id hid)
        refine Classical.byContradiction fun hview => hnone ⟨?_, hstarted, e, he, hid, ?_⟩
        · rw [hturn]
          rfl
        · exact fun e' he' heq => hview (isSome_view.mpr ⟨e', he', heq⟩)

/-- A turn leaves all records backed just if it abandons none. -/
theorem Backed.turn_iff {turn : Turn} (hbacked : v.Backed) (hv : Sound s v)
    (hturn : TurnEffect s v turn v') (haccepted : Accepted v v') :
    v'.Backed ↔ ¬ Abandoned turn v v' := by
  have hnone (hedits : turn.edits = none) (hbacked' : v'.Backed) :
      v'.Backed ↔ ¬ Abandoned turn v v' := by
    refine iff_of_true hbacked' fun habandoned => ?_
    have hsome := habandoned.1
    rw [hedits] at hsome
    cases hsome
  cases turn with
  | work => exact hnone rfl (hbacked.dispatched hv hturn haccepted)
  | choose m hm => exact hnone rfl (hbacked.of_spared hturn)
  | perform t o =>
      have heffect : Effect s t v o v' := hturn
      cases hedits : o.edits with
      | none => exact hnone hedits (hbacked.effect hv hedits heffect haccepted)
      | some edited => exact hbacked.edits_iff hv hedits (heffect.revisions hedits) haccepted

theorem Dispatched.started (hdispatched : Dispatched s t v v') (hstarted : v'.started = true) :
    v.started = true := by
  rcases hdispatched with hspared | ⟨v₁, v₂, hspared, hswapped, hspared'⟩
  · exact hspared.started hstarted
  · apply hspared.started
    rw [← (Tended.swapped hswapped).started]
    exact hspared'.started hstarted

/-- A session is started by its engine alone. -/
theorem started_of_turn {turn : Turn} (hturn : TurnEffect s v turn v') (hstarts : turn.starts = false)
    (hstarted : v'.started = true) : v.started = true := by
  cases turn with
  | work => exact Dispatched.started hturn hstarted
  | choose m hm => exact Spared.started hturn hstarted
  | perform t o =>
      have heffect : Effect s t v o v' := hturn
      have htended (h : Tended v v') : v.started = true := h.started.symm.trans hstarted
      cases o with
      | command k => exact Dispatched.started heffect hstarted
      | started thread => cases hstarts
      | fileLoaded file =>
          simp only [Effect] at heffect
          split at heffect
          · exact htended (.boundAll heffect)
          · exact heffect ▸ hstarted
      | fileUnloaded file =>
          simp only [Effect] at heffect
          split at heffect
          · exact htended (.forgotten heffect)
          · exact heffect ▸ hstarted
      | setStatus handle status message =>
          obtain rfl : v' = _ := heffect
          exact hstarted
      | adjust id line =>
          simp only [Effect] at heffect
          split at heffect
          · exact heffect ▸ hstarted
          · exact htended (.adjusted heffect)
      | attach new => exact htended (.swapped heffect)
      | breakpoints =>
          obtain ⟨st, hprovided⟩ := heffect
          exact htended (.provided hprovided)
      | edit st e => exact htended (.revisions (Effect.revisions rfl heffect))
      | adjustLine st id line => exact htended (.revisions (Effect.revisions rfl heffect))
      | resetAdjusted st => exact htended (.revisions heffect)
      | _ => exact Spared.started heffect hstarted

theorem Started.started (hstarted : Started s t v v') : v'.started = true := by
  obtain ⟨v₁, st, v₂, -, hprovided, hbound⟩ := hstarted
  rw [(BoundAll.dealt hbound).started, (Tended.provided hprovided).started]
  rfl

/-- While started, records come to lack their events by a start alone. -/
theorem Backed.started_turn_iff {turn : Turn} (hbacked : v.started = true → v.Backed)
    (hv : Sound s v) (hturn : TurnEffect s v turn v') (haccepted : Accepted v v') :
    (v'.started = true → v'.Backed) ↔ ¬ (turn.starts = true ∧ ¬ v.Backed) := by
  cases hstarts : turn.starts with
  | false =>
      refine iff_of_true (fun hstarted' => ?_) (by simp)
      have hstarted := started_of_turn hturn hstarts hstarted'
      apply ((hbacked hstarted).turn_iff hv hturn haccepted).mpr
      exact fun habandoned => by cases hstarted.symm.trans habandoned.2.1
  | true =>
      obtain ⟨t, thread, rfl⟩ := Turn.eq_of_starts hstarts
      have hstarted : Started s t v v' := hturn
      rw [Backed.started_iff hstarted, not_and, Classical.not_not]
      exact ⟨fun h _ => h hstarted.started, fun h _ => h rfl⟩

end Standing

/-- All records of a session are of events of the attached store. -/
def World.Backed {σ : Type} (w : World σ) (s : SessionId) : Prop :=
  ∀ r ∈ (w.session s).bindings.records, ∃ e ∈ w.attachedEvents s, e.id = r.id

def World.BackedWhileStarted {σ : Type} (w : World σ) (s : SessionId) : Prop :=
  (w.session s).lifecycle.started = true → w.Backed s

/-- An event of the attached store is taken away that has a record, while the session is not
started. -/
def Turn.Abandons {σ : Type} (h : Host σ) (s : SessionId) (w : World σ) (turn : Turn) : Prop :=
  turn.edits.isSome ∧ (w.session s).lifecycle.started = false ∧
    ∃ e ∈ w.attachedEvents s, (∃ r ∈ (w.session s).bindings.records, r.id = e.id) ∧
      ∀ e' ∈ (turn.after h s w).attachedEvents s, e'.id ≠ e.id

def Turn.Revives {σ : Type} (s : SessionId) (w : World σ) (turn : Turn) : Prop :=
  turn.starts = true ∧ ¬ w.Backed s

instance {σ : Type} (w : World σ) (s : SessionId) : Decidable (w.Backed s) :=
  inferInstanceAs (Decidable (∀ r ∈ _, ∃ e ∈ _, _))

instance {σ : Type} (w : World σ) (s : SessionId) : Decidable (w.BackedWhileStarted s) :=
  inferInstanceAs (Decidable (_ → _))

instance {σ : Type} (h : Host σ) (s : SessionId) (w : World σ) (turn : Turn) :
    Decidable (turn.Abandons h s w) :=
  inferInstanceAs (Decidable (_ ∧ _ ∧ ∃ e ∈ _, _ ∧ _))

namespace Ledger

variable {σ : Type} {L : Ledger σ} {h : Host σ} {w : World σ} {v : Standing}

theorem Shows.backed_iff (hw : L.Shows w v) : w.Backed L.session ↔ v.Backed := by
  simp only [World.Backed, hw.world_session, hw.attachedEvents]
  constructor
  · intro hbacked id hid
    obtain ⟨r, hr⟩ := Option.isSome_iff_exists.mp hid
    obtain rfl := BindingTable.id_of_get? hr
    exact Standing.isSome_view.mpr (hbacked r (BindingTable.mem_of_get? hr))
  · intro hbacked r hr
    apply Standing.isSome_view.mp
    exact hbacked r.id (List.find?_isSome.mpr ⟨r, hr, beq_self_eq_true r.id⟩)

theorem Shows.abandons_iff (hw : L.Shows w v) {turn : Turn} {v' : Standing}
    (hw' : L.Shows (turn.after h L.session w) v') :
    turn.Abandons h L.session w ↔ Standing.Abandoned turn v v' := by
  have hrecord (id : BreakEventId) :
      (∃ r ∈ v.session.bindings.records, r.id = id) ↔ (v.bindings.get? id).isSome := by
    simp [BindingTable.get?, List.find?_isSome]
  simp only [Turn.Abandons, hw.world_session, hw.attachedEvents, hw'.attachedEvents, hrecord]
  rfl

/-- As long as an engine lets go of what it is asked to let go of: while started, all records are of
events of the attached store just if the engine never starts when the record of another is left; and
none is ever left just if no event that has a record is taken from the store while the session is
not started. -/
theorem backed_iff_nothing_abandoned (quiet : L.Quiet h) {config : SessionConfig}
    (hopened : w.Opened L.session config) (turns : List Turn)
    (haccepted : ∀ x ∈ (L.entries (Turn.afterAll h L.session w turns).host).drop
      (L.entries w.host).length, x.refusesRemoval = false) :
    (Throughout (Turn.after h L.session) (·.BackedWhileStarted L.session) w turns ↔
      Nowhere (Turn.after h L.session) (Turn.Revives L.session) w turns) ∧
    (Throughout (Turn.after h L.session) (·.Backed L.session) w turns ↔
      Nowhere (Turn.after h L.session) (Turn.Abandons h L.session) w turns) := by
  obtain ⟨v₀, output, hv₀, hsession⟩ := knows_of_opened hopened
  have hbacked₀ : w.Backed L.session := by
    intro r hr
    rw [hv₀.seen.world_session, hsession] at hr
    cases hr
  have hiff {P : World σ → Prop} {bad : World σ → Turn → Prop} (hw : P w)
      (hlocal : ∀ {w turn v v'}, L.Knows config w v → L.Knows config (turn.after h L.session w) v' →
        Standing.TurnEffect L.session v turn v' → Standing.Accepted v v' → P w →
        (P (turn.after h L.session w) ↔ ¬ bad w turn)) :
      Throughout (Turn.after h L.session) P w turns ↔ Nowhere (Turn.after h L.session) bad w turns := by
    refine throughout_iff_nowhere
      (I := fun w => ∃ v, L.Knows config w v ∧ v₀.exchanges <+: v.exchanges)
      (C := fun w => ∀ x ∈ (L.entries w.host).drop v₀.exchanges.length, x.refusesRemoval = false)
      ?_ ?_ ?_ ⟨v₀, hv₀, List.prefix_refl _⟩ (hv₀.seen.exchanges ▸ haccepted) hw
    · rintro w turn ⟨v, hv, hgrown⟩
      obtain ⟨v', hv', hturn⟩ := hv.turn quiet turn
      exact ⟨v', hv', hgrown.trans (Standing.Lasting.turn hturn).grown⟩
    · rintro w turn ⟨v, hv, hgrown⟩ haccepted' x hx
      obtain ⟨v', hv', hturn⟩ := hv.turn quiet turn
      rw [hv'.seen.exchanges] at haccepted'
      rw [hv.seen.exchanges] at hx
      apply haccepted' x
      exact (Standing.since_prefix (Standing.Lasting.turn hturn).grown hgrown).subset hx
    · rintro w turn ⟨v, hv, hgrown⟩ haccepted' hP
      obtain ⟨v', hv', hturn⟩ := hv.turn quiet turn
      refine hlocal hv hv' hturn (fun x hx => ?_) hP
      rw [hv'.seen.exchanges] at haccepted'
      apply haccepted' x
      change x ∈ v'.since v₀.exchanges
      rw [Standing.since_trans hgrown (Standing.Lasting.turn hturn).grown]
      exact List.mem_append_right _ hx
  constructor
  · refine hiff (fun _ => hbacked₀) fun {w turn v v'} hv hv' hturn haccepted hbacked => ?_
    simp only [World.BackedWhileStarted, Turn.Revives, hv.seen.world_session, hv.seen.backed_iff,
      hv'.seen.world_session, hv'.seen.backed_iff] at hbacked ⊢
    exact Standing.Backed.started_turn_iff hbacked hv.sound hturn haccepted
  · refine hiff hbacked₀ fun {w turn v v'} hv hv' hturn haccepted hbacked => ?_
    rw [hv'.seen.backed_iff, hv.seen.abandons_iff hv'.seen]
    exact (hv.seen.backed_iff.mp hbacked).turn_iff hv.sound hturn haccepted

def boundOnce : List Turn :=
  Scripted.calls [.breakpoints, .edit ⟨0⟩ (.add (Scripted.breakpoint 1 10)), .started none,
    .targetEvent { kind := .exited }]

theorem backed_after_restart :
    Throughout (Turn.after (Scripted.host Scripted.willing) Scripted.self)
      (·.Backed Scripted.self) (Scripted.opened {})
      (boundOnce ++ Scripted.calls [.started none, .edit ⟨0⟩ (.remove ⟨1⟩)]) := by
  refine (backed_iff_nothing_abandoned (Scripted.quiet Scripted.willing)
    (Scripted.opened_self {}) _ ?_).2.mpr ?_
  · decide +kernel
  · exact ⟨by decide +kernel, by decide +kernel, by decide +kernel, by decide +kernel,
      by decide +kernel, by decide +kernel, trivial⟩

/-- The breakpoint is removed between two runs, and its record counts in the second. -/
theorem not_backed_after_removal :
    ¬ (Turn.afterAll (Scripted.host Scripted.willing) Scripted.self (Scripted.opened {})
      (boundOnce ++ Scripted.calls [.edit ⟨0⟩ (.remove ⟨1⟩), .started none])).BackedWhileStarted
        Scripted.self := by
  decide +kernel

end Ledger

end DebugSession
