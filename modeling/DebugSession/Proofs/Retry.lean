import DebugSession.Proofs.Backing

namespace DebugSession

namespace Exchange

def refuses (x : Exchange) : Bool :=
  match x.request, x.answer with
  | .update _ _, .error _ | .enable _ _, .error _ | .remove _, .error _ => true
  | _, _ => false

/-- An engine that may refuse to bind but does all else that it is asked for. -/
def Compliant (xs : List Exchange) : Prop := ∀ x ∈ xs, x.refuses = false

theorem Compliant.of_lead {xs ys : List Exchange} (hys : Compliant ys) (hxs : xs <+: ys) :
    Compliant xs := fun x hx => hys x (hxs.subset hx)

theorem refusesRemoval_of_refuses {x : Exchange} (hx : x.refuses = false) :
    x.refusesRemoval = false := by
  obtain ⟨q, answer⟩ := x
  cases q with
  | remove handle =>
      cases answer with
      | ok _ => rfl
      | error err => cases hx
  | _ => rfl

end Exchange

open Exchange

def BindingTable.InStep (t : BindingTable) (m : StoreView) : Prop :=
  ∀ id r, t.get? id = some r → m id = some r.breakEvent

namespace BindingTable.InStep

variable {t : BindingTable} {m : StoreView}

theorem insert (ht : t.InStep m) {r : BindingRecord} (hr : m r.id = some r.breakEvent) :
    (t.insert r).InStep m := by
  intro id r' hr'
  rw [get?_insert] at hr'
  split at hr'
  · rename_i hid
    cases hr'
    rw [hid, hr]
  · exact ht id r' hr'

theorem put (ht : t.InStep m) (r : BindingRecord) : (t.insert r).InStep (m.put r.breakEvent) := by
  intro id r' hr'
  rw [get?_insert] at hr'
  simp only [StoreView.put]
  change (if id = r.id then _ else _) = _
  split at hr'
  · rename_i hid
    cases hr'
    rw [if_pos hid]
  · rename_i hid
    rw [if_neg hid]
    exact ht id r' hr'

theorem remove (ht : t.InStep m) (id : BreakEventId) : (t.remove id).InStep m := by
  intro id' r hr
  rw [get?_remove] at hr
  split at hr
  · cases hr
  · exact ht id' r hr

theorem erase (ht : t.InStep m) (id : BreakEventId) : (t.remove id).InStep (m.erase id) := by
  intro id' r hr
  rw [get?_remove] at hr
  simp only [StoreView.erase]
  split at hr
  · cases hr
  · rename_i hid
    rw [if_neg hid]
    exact ht id' r hr

theorem setStatus (ht : t.InStep m) (handle : BindingHandle) (status : BindingStatus)
    (message : Option String) : (t.setStatus handle status message).InStep m := by
  intro id r hr
  rw [get?_setStatus] at hr
  obtain ⟨r', hr', rfl⟩ := Option.map_eq_some_iff.mp hr
  rw [ht id r' hr']
  split <;> rfl

/-- A record may follow its event alone. -/
theorem modify (ht : t.InStep m) {r : BindingRecord} {id : BreakEventId}
    {f : BreakEvent → BreakEvent} (hr : t.get? id = some r) (hf : (f r.breakEvent).id = id) :
    (t.insert { r with breakEvent := f r.breakEvent }).InStep (m.modify id f) := by
  intro id' r' hr'
  have hid₀ : BindingRecord.id { r with breakEvent := f r.breakEvent } = id := hf
  rw [get?_insert, hid₀] at hr'
  simp only [StoreView.modify]
  split at hr'
  · rename_i hid
    cases hr'
    rw [if_pos hid, hid, ht id r hr]
    rfl
  · rename_i hid
    rw [if_neg hid]
    exact ht id' r' hr'

theorem modify_none (ht : t.InStep m) {id : BreakEventId} {f : BreakEvent → BreakEvent}
    (hnone : t.get? id = none) : t.InStep (m.modify id f) := by
  intro id' r hr
  have hid : id' ≠ id := by
    rintro rfl
    cases hnone.symm.trans hr
  simp only [StoreView.modify, if_neg hid]
  exact ht id' r hr

end BindingTable.InStep

/-- How a table `b` turns out when events are changed in place and the view is `m` in the end: its
bound records follow, and the others stay as they are. -/
structure BindingTable.Follows (b : BindingTable) (m : StoreView) (b' : BindingTable) : Prop where
  unknown : ∀ id, b.get? id = none → b'.get? id = none
  unbound : ∀ id r, b.get? id = some r → r.handle = none → b'.get? id = some r
  bound : ∀ id r, b.get? id = some r → r.handle ≠ none →
    ∃ r', b'.get? id = some r' ∧ r'.handle ≠ none ∧ m id = some r'.breakEvent

namespace BindingTable.Follows

variable {b b' : BindingTable} {m m' : StoreView}

theorem refl (hstep : b.InStep m) : b.Follows m b :=
  ⟨fun _ h => h, fun _ _ hr _ => hr, fun id r hr hhandle => ⟨r, hr, hhandle, hstep id r hr⟩⟩

/-- Only records that are bound come to differ from `b`. -/
theorem inStep_iff (hfollows : b.Follows m' b') (hstep : b.InStep m) :
    b'.InStep m' ↔ ∀ id r, b.get? id = some r → r.handle = none → m' id = m id := by
  constructor
  · intro hstep' id r hr hhandle
    rw [hstep id r hr]
    exact hstep' id r (hfollows.unbound id r hr hhandle)
  · intro hsame id r' hr'
    cases hr : b.get? id with
    | none => cases (hfollows.unknown id hr).symm.trans hr'
    | some r =>
        by_cases hhandle : r.handle = none
        · obtain rfl := Option.some.inj ((hfollows.unbound id r hr hhandle).symm.trans hr')
          rw [hsame id r hr hhandle]
          exact hstep id r hr
        · obtain ⟨r₀, hr₀, -, hm'⟩ := hfollows.bound id r hr hhandle
          obtain rfl := Option.some.inj (hr₀.symm.trans hr')
          exact hm'

/-- An event that has no bound record may change. -/
theorem modify_unbound (hfollows : b.Follows m b') {id : BreakEventId}
    {f : BreakEvent → BreakEvent} (hid : ∀ r, b'.get? id = some r → r.handle = none) :
    b.Follows (m.modify id f) b' := by
  refine ⟨hfollows.unknown, hfollows.unbound, fun id' r hr hhandle => ?_⟩
  obtain ⟨r', hr', hhandle', hm⟩ := hfollows.bound id' r hr hhandle
  refine ⟨r', hr', hhandle', ?_⟩
  have hne : id' ≠ id := by
    rintro rfl
    exact hhandle' (hid r' hr')
  simp only [StoreView.modify, if_neg hne]
  exact hm

/-- A bound record changes with its event. -/
theorem modify_bound (hfollows : b.Follows m b') {id : BreakEventId} {r : BindingRecord}
    {f : BreakEvent → BreakEvent} (hr : b'.get? id = some r) (hhandle : r.handle ≠ none)
    (hf : (f r.breakEvent).id = id) :
    b.Follows (m.modify id f) (b'.insert { r with breakEvent := f r.breakEvent }) := by
  have hid₀ : BindingRecord.id { r with breakEvent := f r.breakEvent } = id := hf
  refine ⟨fun id' hnone => ?_, fun id' r' hr' hhandle' => ?_, fun id' r' hr' hhandle' => ?_⟩
  · have hnone' := hfollows.unknown id' hnone
    have hid : id' ≠ id := by
      rintro rfl
      cases hnone'.symm.trans hr
    rw [get?_insert, hid₀, if_neg hid]
    exact hnone'
  · have hsome := hfollows.unbound id' r' hr' hhandle'
    have hid : id' ≠ id := by
      rintro rfl
      obtain rfl := Option.some.inj (hsome.symm.trans hr)
      exact hhandle hhandle'
    rw [get?_insert, hid₀, if_neg hid]
    exact hsome
  · obtain ⟨r₁, hr₁, hhandle₁, hm⟩ := hfollows.bound id' r' hr' hhandle'
    rw [get?_insert, hid₀]
    simp only [StoreView.modify]
    by_cases hid : id' = id
    · subst hid
      obtain rfl := Option.some.inj (hr₁.symm.trans hr)
      refine ⟨_, if_pos rfl, hhandle, ?_⟩
      rw [if_pos rfl, hm]
      rfl
    · rw [if_neg hid, if_neg hid]
      exact ⟨r₁, hr₁, hhandle₁, hm⟩

end BindingTable.Follows

namespace Standing

variable {s : SessionId} {t : Thread} {st : StoreId} {v v' : Standing} {m : StoreView}

theorem accepted_of_compliant (hcompliant : Compliant v'.exchanges) : Accepted v v' :=
  fun x hx => refusesRemoval_of_refuses (hcompliant x (List.mem_of_mem_drop hx))

theorem complied_of_compliant {q : EngineRequest} {a : Mood} {b : BindingTable}
    (hrefuses : ∀ err, refuses ⟨q, .error err⟩ = true)
    (hcompliant : Compliant (v.complied q a b).exchanges) : (v.complied q a b).bindings = b := by
  simp only [complied] at hcompliant ⊢
  split at hcompliant
  · rfl
  · rename_i err herr
    have hrefused := hcompliant ⟨q, a q⟩ (by simp [asked])
    rw [herr, hrefuses err] at hrefused
    cases hrefused

theorem changed_bindings {id : BreakEventId} {change : BindingHandle → EngineRequest}
    {f : BreakEvent → BreakEvent} {a : Mood}
    (hrefuses : ∀ handle err, refuses ⟨change handle, .error err⟩ = true)
    (hcompliant : Compliant (v.changed id change f a).exchanges) :
    (v.changed id change f a).bindings =
      match v.bindings.get? id with
      | none => v.bindings
      | some r => if r.handle = none then v.bindings
        else v.bindings.insert { r with breakEvent := f r.breakEvent } := by
  simp only [changed] at hcompliant ⊢
  cases hr : v.bindings.get? id with
  | none => simp only
  | some r =>
      simp only [hr] at hcompliant ⊢
      cases hhandle : r.handle with
      | none => simp
      | some handle =>
          simp only [hhandle] at hcompliant ⊢
          exact complied_of_compliant (hrefuses handle) hcompliant

theorem followed_inStep {a : Announcement} {mood : Mood} (hstep : v.bindings.InStep m)
    (hstarted : v.started = true) (hidle : v.bindings.isEditing t = false)
    (hplace : a.change.inPlace = false) (hcompliant : Compliant (v.followed t a mood).exchanges) :
    (v.followed t a mood).bindings.InStep (m.told a) := by
  obtain ⟨change, e⟩ := a
  simp only [followed, if_pos hstarted, hidle] at hcompliant ⊢
  cases change with
  | added =>
      have hput := hstep.put (.ofAnswer e (mood (.insert e)))
      rwa [BindingRecord.ofAnswer_breakEvent] at hput
  | removed =>
      have hbindings := unbound_bindings (v := v) (accepted_of_compliant hcompliant)
      change (v.unbound e.id mood).bindings.InStep (m.erase e.id)
      rw [hbindings]
      exact hstep.erase e.id
  | statusChanged => exact hstep
  | modified | enableChanged => cases hplace

theorem Follows.changed {b : BindingTable} {id : BreakEventId}
    {change : BindingHandle → EngineRequest} {f : BreakEvent → BreakEvent} {mood : Mood}
    (hfollows : b.Follows m v.bindings)
    (hrefuses : ∀ handle err, refuses ⟨change handle, .error err⟩ = true)
    (hf : ∀ e, e.id = id → (f e).id = id)
    (hcompliant : Compliant (v.changed id change f mood).exchanges) :
    b.Follows (m.modify id f) (v.changed id change f mood).bindings := by
  rw [changed_bindings hrefuses hcompliant]
  cases hr : v.bindings.get? id with
  | none => exact hfollows.modify_unbound fun r hr' => by cases hr.symm.trans hr'
  | some r =>
      by_cases hhandle : r.handle = none
      · simp only [if_pos hhandle]
        refine hfollows.modify_unbound fun r' hr' => ?_
        rwa [← Option.some.inj (hr.symm.trans hr')]
      · simp only [if_neg hhandle]
        exact hfollows.modify_bound hr hhandle (hf _ (BindingTable.id_of_get? hr))

theorem Follows.followed {b : BindingTable} {a : Announcement} {mood : Mood}
    (hfollows : b.Follows m v.bindings) (hstarted : v.started = true)
    (hplace : a.change.inPlace = true) (hcompliant : Compliant (v.followed t a mood).exchanges) :
    b.Follows (m.told a) (v.followed t a mood).bindings := by
  obtain ⟨change, e⟩ := a
  simp only [Standing.followed, if_pos hstarted] at hcompliant ⊢
  cases change with
  | modified =>
      exact Follows.changed hfollows (fun _ _ => rfl) (fun _ _ => rfl) hcompliant
  | enableChanged =>
      exact Follows.changed hfollows (fun _ _ => rfl) (fun _ hid => hid) hcompliant
  | added | removed | statusChanged => cases hplace

def InStep (v : Standing) : Prop := v.bindings.InStep v.view

theorem InStep.backed (hstep : v.InStep) : v.Backed := by
  intro id hid
  obtain ⟨r, hr⟩ := Option.isSome_iff_exists.mp hid
  rw [hstep id r hr]
  rfl

theorem bound_inStep (ht : v.bindings.InStep m) {e : BreakEvent} (he : m e.id = some e) (a : Mood) :
    (v.bound e a).bindings.InStep m := by
  apply ht.insert
  rwa [BindingRecord.id, BindingRecord.ofAnswer_breakEvent]

theorem boundAll_inStep {es : List BreakEvent} (hchain : BoundAll es v v')
    (hes : ∀ e ∈ es, m e.id = some e) (ht : v.bindings.InStep m) : v'.bindings.InStep m := by
  simp only [BoundAll] at hchain
  induction hchain with
  | nil v => exact ht
  | cons hx hrest ih =>
      obtain ⟨a, rfl⟩ := hx
      refine ih (fun e he => hes e (List.mem_cons_of_mem _ he)) ?_
      exact bound_inStep ht (hes _ List.mem_cons_self) a

theorem BoundIfStarted.inStep (hbound : BoundIfStarted st v v') (hdistinct : (v.store st).Distinct)
    (hempty : ∀ id, v.bindings.get? id = none) : v'.bindings.InStep (v.store st).view := by
  have hnothing : v.bindings.InStep (v.store st).view := fun id r hr => by
    cases (hempty id).symm.trans hr
  simp only [BoundIfStarted] at hbound
  split at hbound
  · exact boundAll_inStep hbound (fun e he => BreakpointStore.get?_of_mem hdistinct he) hnothing
  · exact hbound ▸ hnothing

theorem InStep.swapped {new : Option StoreId} (hstep : v.InStep) (hv : Sound s v)
    (hswapped : Swapped s t new v v') (hcompliant : Compliant v'.exchanges) : v'.InStep := by
  have hstore := hswapped.store
  obtain ⟨v₁, hletgo, hattach⟩ := hswapped
  have hunique := (hletgo.clear hv.toHooked).2.2.2 hv.unique
  cases new with
  | none =>
      subst hattach
      have hempty := hletgo.empty hv.toHooked (accepted_of_compliant hcompliant) hstep.backed
      intro id r hr
      cases (hempty id).symm.trans hr
  | some st =>
      obtain ⟨v₂, hbound, rfl⟩ := hattach
      have hdealt := hbound.dealt
      have hcompliant₁ : Compliant v₁.exchanges := hcompliant.of_lead hdealt.grown
      have hempty := hletgo.empty hv.toHooked (accepted_of_compliant hcompliant₁) hstep.backed
      have hstep₂ := hbound.inStep (hunique st) hempty
      simp only [InStep]
      have hstore₂ : v₂.session.store = some st := hstore
      rw [view_subscribed hstore₂, hdealt.store]
      exact hstep₂

theorem InStep.of_same (hstep : v.InStep) (hbindings : v'.bindings = v.bindings)
    (hview : v'.view = v.view) : v'.InStep := by
  simp only [InStep]
  rwa [hbindings, hview]

theorem InStep.of_spared (hstep : v.InStep) (hspared : Spared v v') : v'.InStep :=
  hstep.of_same hspared.bindings (view_of_spared hspared)

theorem InStep.provided (hstep : v.InStep) (hprovided : Provided s t v st v') : v'.InStep :=
  hstep.of_same hprovided.idle.1 hprovided.view

theorem InStep.of_started (hstep : v.InStep) (hv : Sound s v) (hstarted : Started s t v v') :
    v'.InStep := by
  obtain ⟨v₁, st, v₂, hspared, hprovided, hbound⟩ := hstarted
  have hdealt := BoundAll.dealt hbound
  have hv₁ := (hv.of_spared hspared).initialized
  have hstep₁ : v₁.InStep := hstep.of_spared hspared
  have hstep₂ := InStep.provided (v := v₁.initialized) hstep₁ hprovided
  simp only [InStep]
  rw [view_of_dealt hdealt]
  refine boundAll_inStep hbound (fun e he => ?_) hstep₂
  simp only [view]
  rw [hprovided.attached he]
  exact BreakpointStore.get?_of_mem ((hv₁.provided hprovided).unique st) he

theorem InStep.dispatched (hstep : v.InStep) (hv : Sound s v) (hdispatched : Dispatched s t v v')
    (hcompliant : Compliant v'.exchanges) : v'.InStep := by
  rcases hdispatched with hspared | ⟨v₁, v₂, hspared, hswapped, hspared'⟩
  · exact hstep.of_spared hspared
  · have hcompliant₂ := hcompliant.of_lead hspared'.grown
    exact ((hstep.of_spared hspared).swapped (hv.of_spared hspared) hswapped hcompliant₂).of_spared
      hspared'

theorem InStep.forgotten {rs : List BindingRecord} (hstep : v.InStep)
    (hforgotten : Forgotten rs v v') : v'.InStep := by
  simp only [Forgotten] at hforgotten
  induction hforgotten with
  | nil v => exact hstep
  | @cons r rest v v' v'' hx hrest ih =>
      subst hx
      apply ih
      simp only [InStep]
      rw [view_of_dealt (Dealt.remove v r.id)]
      exact BindingTable.InStep.remove hstep r.id

theorem InStep.adjusted {id : BreakEventId} {line : Nat} (hstep : v.InStep)
    (hadjusted : Adjusted s t st id line v v') (hstore : v.session.store = some st) : v'.InStep := by
  rcases hadjusted.moved hstore with rfl | ⟨e, x, -, rfl, hview⟩
  · exact hstep
  · change (v.moved e).bindings.InStep _
    rw [hview]
    simp only [moved]
    cases hr : v.bindings.get? e.id with
    | none => exact BindingTable.InStep.modify_none hstep hr
    | some r => exact BindingTable.InStep.modify (f := fun _ => e) hstep hr rfl

theorem InStep.reloaded {file : String} (hstep : v.InStep) (hv : Sound s v)
    (hbound : BoundAll ((v.waiting file).map (·.breakEvent)) v v') : v'.InStep := by
  simp only [InStep, view_of_dealt (BoundAll.dealt hbound)]
  refine boundAll_inStep hbound (fun e he => ?_) hstep
  obtain ⟨r, hr, rfl⟩ := List.mem_map.mp he
  have hmem : r ∈ v.bindings.records := (List.mem_filter.mp hr).1
  exact hstep r.id r (BindingTable.get?_of_mem hv.distinct hmem)

/-- But for edits, all that happens leaves the records in step. -/
theorem InStep.effect {o : Operation} (hstep : v.InStep) (hv : Sound s v) (ho : o.edits = none)
    (heffect : Effect s t v o v') (hcompliant : Compliant v'.exchanges) : v'.InStep := by
  cases o with
  | command k => exact hstep.dispatched hv heffect hcompliant
  | started thread => exact hstep.of_started hv heffect
  | fileLoaded file =>
      simp only [Effect] at heffect
      split at heffect
      · exact hstep.reloaded hv heffect
      · exact heffect ▸ hstep
  | fileUnloaded file =>
      simp only [Effect] at heffect
      split at heffect
      · exact hstep.forgotten heffect
      · exact heffect ▸ hstep
  | setStatus handle status message =>
      obtain rfl : v' = _ := heffect
      exact BindingTable.InStep.setStatus hstep handle status message
  | adjust id line =>
      simp only [Effect] at heffect
      split at heffect
      · exact heffect ▸ hstep
      · rename_i hstore
        exact hstep.adjusted heffect hstore
  | attach new => exact hstep.swapped hv heffect hcompliant
  | breakpoints =>
      obtain ⟨st, hprovided⟩ := heffect
      exact hstep.provided hprovided
  | edit st e | adjustLine st id line | resetAdjusted st => cases ho
  | _ => exact hstep.of_spared heffect

theorem InStep.told {as : List Announcement} (hchain : Chain (Announced s t st) as v v')
    (hhooks : hooks s (v.store st) ≠ []) (hstarted : v.started = true)
    (hidle : v.bindings.isEditing t = false) (has : ∀ a ∈ as, a.change.inPlace = false)
    (hcompliant : Compliant v'.exchanges) (hstep : v.bindings.InStep m) :
    v'.bindings.InStep (m.toldAll as) := by
  induction hchain generalizing m with
  | nil v => exact hstep
  | @cons a rest v v' v'' hx hrest ih =>
      simp only [Announced, if_neg hhooks] at hx
      obtain ⟨mood, rfl⟩ := hx
      have hdealt := Dealt.followed t a mood v
      have hgrown := (Chain.dealt hrest fun _ _ _ h => h.dealt).grown
      refine ih ?_ (hdealt.started.trans hstarted) ?_ (fun a' ha' => has a' (List.mem_cons_of_mem a ha'))
        hcompliant ?_
      · rwa [hdealt.store]
      · rwa [BindingTable.isEditing, hdealt.openEdits]
      · apply followed_inStep hstep hstarted hidle (has a List.mem_cons_self)
        exact hcompliant.of_lead hgrown

theorem Follows.told {b : BindingTable} {as : List Announcement}
    (hchain : Chain (Announced s t st) as v v') (hhooks : hooks s (v.store st) ≠ [])
    (hstarted : v.started = true) (has : ∀ a ∈ as, a.change.inPlace = true)
    (hcompliant : Compliant v'.exchanges) (hfollows : b.Follows m v.bindings) :
    b.Follows (m.toldAll as) v'.bindings := by
  induction hchain generalizing m with
  | nil v => exact hfollows
  | @cons a rest v v' v'' hx hrest ih =>
      simp only [Announced, if_neg hhooks] at hx
      obtain ⟨mood, rfl⟩ := hx
      have hdealt := Dealt.followed t a mood v
      have hgrown := (Chain.dealt hrest fun _ _ _ h => h.dealt).grown
      refine ih ?_ (hdealt.started.trans hstarted) (fun a' ha' => has a' (List.mem_cons_of_mem a ha'))
        hcompliant ?_
      · rwa [hdealt.store]
      · apply Follows.followed hfollows hstarted (has a List.mem_cons_self)
        exact hcompliant.of_lead hgrown

theorem InStep.revisions (hstep : v.InStep) (hv : Sound s v) (hst : v.Attached st)
    (hstarted : v.started = true) (hrevisions : Revisions s t st false v v')
    (hcompliant : Compliant v'.exchanges) : v'.InStep := by
  induction hrevisions with
  | refl => exact hstep
  | @tail v₁ v₂ hfirst hlast ih =>
      have hv₁ := hv.revisions hfirst
      have hst₁ := (Kept.revisions hfirst).attached.mpr hst
      have hstep₁ := ih (hcompliant.of_lead (Tended.revised hlast).grown)
      obtain ⟨x, hx, hedited⟩ := hlast
      simp only [InStep, hedited.view hst₁, hx.replay]
      refine InStep.told hedited (hv₁.heard hst₁ hx.listeners) ?_ (hv₁.isEditing t) hx.inPlace
        hcompliant ?_
      · exact (Tended.revisions hfirst).started.trans hstarted
      · rwa [← view_of_attached hst₁]

theorem Follows.revisions {b : BindingTable} (hfollows : b.Follows v.view v.bindings)
    (hv : Sound s v) (hst : v.Attached st) (hstarted : v.started = true)
    (hrevisions : Revisions s t st true v v') (hcompliant : Compliant v'.exchanges) :
    b.Follows v'.view v'.bindings := by
  induction hrevisions with
  | refl => exact hfollows
  | @tail v₁ v₂ hfirst hlast ih =>
      have hv₁ := hv.revisions hfirst
      have hst₁ := (Kept.revisions hfirst).attached.mpr hst
      have hfollows₁ := ih (hcompliant.of_lead (Tended.revised hlast).grown)
      obtain ⟨x, hx, hedited⟩ := hlast
      rw [hedited.view hst₁, hx.replay]
      refine Follows.told hedited (hv₁.heard hst₁ hx.listeners) ?_ hx.inPlace hcompliant ?_
      · exact (Tended.revisions hfirst).started.trans hstarted
      · rwa [← view_of_attached hst₁]

def LeftBehind (turn : Turn) (v v' : Standing) : Prop :=
  ∃ r ∈ v.bindings.records, v'.view r.id ≠ v.view r.id ∧ ∃ st inPlace,
    turn.edits = some (st, inPlace) ∧ (v.started = false ∨ inPlace = true ∧ r.handle = none)

theorem InStep.edits_iff {turn : Turn} {inPlace : Bool} (hstep : v.InStep) (hv : Sound s v)
    (hturn : turn.edits = some (st, inPlace)) (hrevisions : Revisions s t st inPlace v v')
    (hcompliant : Compliant v'.exchanges) : v'.InStep ↔ ¬ LeftBehind turn v v' := by
  by_cases hst : v.Attached st
  · cases hstarted : v.started with
    | false =>
        have hbindings := (hrevisions.unstarted hstarted).1
        constructor
        · rintro hstep' ⟨r, hr, hview, -⟩
          have hget := hv.mem_records.mp hr
          exact hview ((hstep' r.id r (hbindings ▸ hget)).trans (hstep r.id r hget).symm)
        · intro hnone id r hr
          rw [hbindings] at hr
          refine Classical.byContradiction fun hview => ?_
          obtain rfl := BindingTable.id_of_get? hr
          refine hnone ⟨r, BindingTable.mem_of_get? hr, fun hsame => hview ?_, st, inPlace, hturn,
            .inl hstarted⟩
          rw [hsame]
          exact hstep r.id r hr
    | true =>
        cases inPlace with
        | false =>
            apply iff_of_true (hstep.revisions hv hst hstarted hrevisions hcompliant)
            rintro ⟨r, -, -, st', inPlace, hturn', hcase⟩
            cases hturn.symm.trans hturn'
            rcases hcase with hstarted' | ⟨hplace, -⟩
            · cases hstarted.symm.trans hstarted'
            · cases hplace
        | true =>
            have hfollows := Follows.revisions (.refl hstep) hv hst hstarted hrevisions hcompliant
            apply (hfollows.inStep_iff hstep).trans
            constructor
            · rintro hsame ⟨r, hr, hview, st', inPlace, hturn', hcase⟩
              rcases hcase with hstarted' | ⟨-, hhandle⟩
              · cases hstarted.symm.trans hstarted'
              · exact hview (hsame r.id r (hv.mem_records.mp hr) hhandle)
            · intro hnone id r hr hhandle
              refine Classical.byContradiction fun hview => ?_
              obtain rfl := BindingTable.id_of_get? hr
              exact hnone ⟨r, BindingTable.mem_of_get? hr, hview, st, true, hturn, .inr ⟨rfl, hhandle⟩⟩
  · obtain ⟨hbindings, hview⟩ := hrevisions.unattached hv hst
    apply iff_of_true (hstep.of_same hbindings hview)
    rintro ⟨r, -, hchanged, -⟩
    exact hchanged (congrFun hview r.id)

/-- A turn leaves the records in step just if it leaves none behind. -/
theorem InStep.turn_iff {turn : Turn} (hstep : v.InStep) (hv : Sound s v)
    (hturn : TurnEffect s v turn v') (hcompliant : Compliant v'.exchanges) :
    v'.InStep ↔ ¬ LeftBehind turn v v' := by
  have hnone (hedits : turn.edits = none) (hstep' : v'.InStep) : v'.InStep ↔ ¬ LeftBehind turn v v' := by
    apply iff_of_true hstep'
    rintro ⟨r, -, -, st, inPlace, hsome, -⟩
    cases hedits.symm.trans hsome
  cases turn with
  | work => exact hnone rfl (hstep.dispatched hv hturn hcompliant)
  | choose m hm => exact hnone rfl (hstep.of_spared hturn)
  | perform t o =>
      have heffect : Effect s t v o v' := hturn
      cases hedits : o.edits with
      | none => exact hnone hedits (hstep.effect hv hedits heffect hcompliant)
      | some edited => exact hstep.edits_iff hv hedits (heffect.revisions hedits) hcompliant

end Standing

namespace World

variable {σ : Type} (w : World σ) (s : SessionId)

def wanted : StoreView :=
  match (w.session s).store with
  | none => fun _ => none
  | some st => (w.store st).view

def InStep : Prop := ∀ r ∈ (w.session s).bindings.records, w.wanted s r.id = some r.breakEvent

end World

/-- Some event comes to differ from its record: it was edited while the session was not started, or
it was changed in place while it was not bound. -/
def Turn.LeavesBehind {σ : Type} (h : Host σ) (s : SessionId) (w : World σ) (turn : Turn) : Prop :=
  ∃ r ∈ (w.session s).bindings.records, (turn.after h s w).wanted s r.id ≠ w.wanted s r.id ∧
    ∃ st inPlace, turn.edits = some (st, inPlace) ∧
      ((w.session s).lifecycle.started = false ∨ inPlace = true ∧ r.handle = none)

/-- All that a retry for a file passes to the engine is what users currently want. -/
def Ledger.RetriesWanted {σ : Type} (L : Ledger σ) (h : Host σ) (w : World σ) (file : String) : Prop :=
  ∀ thread, ∀ x ∈ Turn.asked h L w (.perform thread (.fileLoaded file)), ∀ e,
    x.request = .insert e → w.wanted L.session e.id = some e

namespace Ledger

variable {σ : Type} {L : Ledger σ} {h : Host σ} {w : World σ} {v : Standing}

theorem Shows.wanted (hw : L.Shows w v) : w.wanted L.session = v.view := by
  simp only [World.wanted, hw.world_session, Standing.view]
  cases v.session.store with
  | none => rfl
  | some st => simp only [hw.world_store]

theorem Shows.inStep_iff (hw : L.Shows w v) (hv : Standing.Sound L.session v) :
    w.InStep L.session ↔ v.InStep := by
  simp only [World.InStep, hw.world_session, hw.wanted]
  constructor
  · intro hstep id r hr
    obtain rfl := BindingTable.id_of_get? hr
    exact hstep r (BindingTable.mem_of_get? hr)
  · exact fun hstep r hr => hstep r.id r (hv.mem_records.mp hr)

theorem Shows.leavesBehind_iff (hw : L.Shows w v) {turn : Turn} {v' : Standing}
    (hw' : L.Shows (turn.after h L.session w) v') :
    turn.LeavesBehind h L.session w ↔ Standing.LeftBehind turn v v' := by
  simp only [Turn.LeavesBehind, hw.world_session, hw.wanted, hw'.wanted]
  rfl

/-- A retry passes on the versions that the records have. -/
theorem Quiet.retriesWanted_iff (quiet : L.Quiet h) (hw : L.Shows w v)
    (hv : Standing.Sound L.session v) (hretry : v.session.config.autoRetry = true) (file : String) :
    L.RetriesWanted h w file ↔
      ∀ r ∈ w.waiting L.session file, w.wanted L.session r.id = some r.breakEvent := by
  rw [hw.waiting]
  have hasked (thread : Thread) :
      (Turn.asked h L w (.perform thread (.fileLoaded file))).map (·.request) =
        (v.waiting file).map fun r => .insert r.breakEvent := by
    obtain ⟨v', hw', hturn⟩ := quiet.turn hw hv (.perform thread (.fileLoaded file))
    simp only [Standing.TurnEffect, Standing.Effect, hretry, if_true] at hturn
    rw [hw.asked hw', Standing.BoundAll.requests hturn, List.map_map]
    rfl
  constructor
  · intro hwanted r hr
    have hrequest : .insert r.breakEvent ∈
        (Turn.asked h L w (.perform (.worker L.session) (.fileLoaded file))).map (·.request) := by
      rw [hasked]
      exact List.mem_map.mpr ⟨r, hr, rfl⟩
    obtain ⟨x, hx, hrequest⟩ := List.mem_map.mp hrequest
    exact hwanted _ x hx r.breakEvent hrequest
  · intro hwanted thread x hx e hrequest
    have hmem : x.request ∈
        (Turn.asked h L w (.perform thread (.fileLoaded file))).map (·.request) :=
      List.mem_map.mpr ⟨x, hx, rfl⟩
    rw [hasked, hrequest] at hmem
    obtain ⟨r, hr, hevent⟩ := List.mem_map.mp hmem
    obtain rfl : r.breakEvent = e := EngineRequest.insert.inj hevent
    exact hwanted r hr

theorem Knows.inStep_iff (quiet : L.Quiet h) {config : SessionConfig} (hv : L.Knows config w v)
    {turn : Turn} (hcompliant : Compliant (L.entries (turn.after h L.session w).host))
    (hstep : w.InStep L.session) :
    (turn.after h L.session w).InStep L.session ↔ ¬ turn.LeavesBehind h L.session w := by
  obtain ⟨v', hv', hturn⟩ := hv.turn quiet turn
  rw [hv'.seen.exchanges] at hcompliant
  rw [hv'.seen.inStep_iff hv'.sound, hv.seen.leavesBehind_iff hv'.seen]
  exact ((hv.seen.inStep_iff hv.sound).mp hstep).turn_iff hv.sound hturn hcompliant

theorem inStep_of_opened {config : SessionConfig} (hopened : w.Opened L.session config) :
    w.InStep L.session := by
  obtain ⟨v, output, hv, hsession⟩ := knows_of_opened hopened
  intro r hr
  rw [hv.seen.world_session, hsession] at hr
  cases hr

/-- Whatever happens to a session that retries: a retry passes on what users currently want just if
the records that wait for it are in step. As long as its engine refuses to bind and nothing else,
the records are in step throughout just if no turn leaves one behind, and then all retries are
right. -/
theorem retries_wanted_iff (quiet : L.Quiet h) {config : SessionConfig}
    (hopened : w.Opened L.session config) (hretry : config.autoRetry = true) (turns : List Turn) :
    (∀ file, L.RetriesWanted h (Turn.afterAll h L.session w turns) file ↔
      ∀ r ∈ (Turn.afterAll h L.session w turns).waiting L.session file,
        (Turn.afterAll h L.session w turns).wanted L.session r.id = some r.breakEvent) ∧
    (Compliant (L.entries (Turn.afterAll h L.session w turns).host) →
      (Throughout (Turn.after h L.session) (·.InStep L.session) w turns ↔
        Nowhere (Turn.after h L.session) (fun w turn => turn.LeavesBehind h L.session w) w turns) ∧
      (Nowhere (Turn.after h L.session) (fun w turn => turn.LeavesBehind h L.session w) w turns →
        ∀ file, L.RetriesWanted h (Turn.afterAll h L.session w turns) file)) := by
  obtain ⟨v, output, hv, -⟩ := knows_of_opened hopened
  obtain ⟨v', hv'⟩ := hv.afterAll quiet turns
  have hwanted := quiet.retriesWanted_iff hv'.seen hv'.sound (by rw [hv'.configured, hretry])
  refine ⟨hwanted, fun hcompliant => ?_⟩
  have hiff : Throughout (Turn.after h L.session) (·.InStep L.session) w turns ↔
      Nowhere (Turn.after h L.session) (fun w turn => turn.LeavesBehind h L.session w) w turns := by
    refine throughout_iff_nowhere (I := fun w => ∃ v, L.Knows config w v)
      (C := fun w => Compliant (L.entries w.host)) ?_ ?_ ?_ ⟨v, hv⟩ hcompliant
      (inStep_of_opened hopened)
    · rintro w turn ⟨v, hv⟩
      obtain ⟨v', hv', -⟩ := hv.turn quiet turn
      exact ⟨v', hv'⟩
    · rintro w turn ⟨v, hv⟩ hcompliant'
      obtain ⟨v', hv', hturn⟩ := hv.turn quiet turn
      rw [hv'.seen.exchanges] at hcompliant'
      rw [hv.seen.exchanges]
      exact hcompliant'.of_lead (Standing.Lasting.turn hturn).grown
    · rintro w turn ⟨v, hv⟩ hcompliant' hstep
      exact hv.inStep_iff quiet hcompliant' hstep
  refine ⟨hiff, fun hnowhere file => (hwanted file).mpr fun r hr => ?_⟩
  have hstep := (hiff.mpr hnowhere).last
  exact hstep r (List.mem_filter.mp hr).1

def refusedAtStart : List Turn :=
  Scripted.calls [.breakpoints, .edit ⟨0⟩ (.add (Scripted.breakpoint 1 10)), .started none]

def retrying : SessionConfig := { autoRetry := true }

theorem retry_of_refused_wanted :
    ((Turn.afterAll (Scripted.host Scripted.reluctant) Scripted.self (Scripted.opened retrying)
      refusedAtStart).waiting Scripted.self "/src/foo.cs").length = 1 ∧
      Scripted.ledger.RetriesWanted (Scripted.host Scripted.reluctant)
        (Turn.afterAll (Scripted.host Scripted.reluctant) Scripted.self (Scripted.opened retrying)
          refusedAtStart)
        "/src/foo.cs" :=
  ⟨by decide +kernel,
    ((retries_wanted_iff (Scripted.quiet Scripted.reluctant) (Scripted.opened_self retrying) rfl
      refusedAtStart).1 "/src/foo.cs").mpr (by decide +kernel)⟩

/-- The breakpoint is given a condition while it waits, and is bound without it. -/
theorem retry_of_changed_unwanted :
    ¬ Scripted.ledger.RetriesWanted (Scripted.host Scripted.reluctant)
      (Turn.afterAll (Scripted.host Scripted.reluctant) Scripted.self (Scripted.opened retrying)
        (refusedAtStart ++ Scripted.calls [.edit ⟨0⟩ (.condition ⟨1⟩ (some "x > 1"))]))
      "/src/foo.cs" := by
  intro hwanted
  have hasked := hwanted (.caller 0) ⟨.insert (Scripted.breakpoint 1 10), .ok { handle := ⟨1⟩ }⟩
    (List.mem_singleton.mpr rfl) (Scripted.breakpoint 1 10) rfl
  revert hasked
  decide +kernel

end Ledger

end DebugSession
