import DebugSession.Proofs.Turn

namespace DebugSession

namespace Standing

variable {s : SessionId} {t : Thread} {st : StoreId} {v v' : Standing}

def Attached (v : Standing) (st : StoreId) : Prop :=
  v.session.store = some st ∧ st.index < v.stores.size

/-- The session listens once to the attached store. -/
structure Hooked (s : SessionId) (v : Standing) : Prop where
  attached : ∀ st, v.Attached st → hooks s (v.store st) = v.session.subscription.toList
  others : ∀ st, ¬ v.Attached st → hooks s (v.store st) = []
  subscribed : v.session.store.isSome → v.session.subscription.isSome

structure Sound (s : SessionId) (v : Standing) : Prop extends Hooked s v where
  held : v.session.held = true
  idle : v.bindings.openEdits = []
  distinct : v.bindings.Distinct
  unique : ∀ st, (v.store st).Distinct

theorem Hooked.once (hv : Hooked s v) (st : StoreId) : (hooks s (v.store st)).length ≤ 1 := by
  by_cases hst : v.Attached st
  · rw [hv.attached st hst]
    cases v.session.subscription <;> simp
  · simp [hv.others st hst]

theorem Sound.wired (hv : Sound s v) : Wired s v := ⟨hv.held, hv.once⟩

theorem Sound.isEditing (hv : Sound s v) (t : Thread) : v.bindings.isEditing t = false := by
  simp [BindingTable.isEditing, hv.idle]

theorem Hooked.hooks_ne_nil (hv : Hooked s v) : hooks s (v.store st) ≠ [] ↔ v.Attached st := by
  by_cases hst : v.Attached st
  · have hsome := hv.subscribed (by simp [hst.1])
    rw [hv.attached st hst]
    cases hsub : v.session.subscription with
    | none => simp [hsub] at hsome
    | some l => simp [hst]
  · simp [hv.others st hst, hst]

theorem Sound.heard (hv : Sound s v) (hst : v.Attached st) {x : BreakpointStore Listener}
    (hx : x.listeners = (v.store st).listeners) : hooks s ((v.putStore st x).store st) ≠ [] := by
  rw [hooks_putStore hx]
  exact hv.hooks_ne_nil.mpr hst

theorem Kept.attached (hkept : Kept s v v') : v'.Attached st ↔ v.Attached st := by
  have hstore : v'.session.store = v.session.store := by rw [hkept.session]
  simp only [Attached, hstore, hkept.size]

theorem Hooked.of_same (hv : Hooked s v) (hsize : v'.stores.size = v.stores.size)
    (hhooks : ∀ st, hooks s (v'.store st) = hooks s (v.store st))
    (hstore : v'.session.store = v.session.store)
    (hsubscription : v'.session.subscription = v.session.subscription) : Hooked s v' := by
  have hattached (st : StoreId) : v'.Attached st ↔ v.Attached st := by
    simp only [Attached]
    rw [hstore, hsize]
  refine ⟨fun st hst => ?_, fun st hst => ?_, ?_⟩
  · rw [hhooks, hsubscription]
    exact hv.attached st ((hattached st).mp hst)
  · rw [hhooks]
    exact hv.others st (fun h => hst ((hattached st).mpr h))
  · rw [hstore, hsubscription]
    exact hv.subscribed

theorem Hooked.of_kept (hv : Hooked s v) (hkept : Kept s v v') : Hooked s v' :=
  hv.of_same hkept.size hkept.hooks (by rw [hkept.session]) (by rw [hkept.session])

theorem Sound.of_kept (hv : Sound s v) (hkept : Kept s v v') (htended : Tended v v') :
    Sound s v' where
  toHooked := hv.toHooked.of_kept hkept
  held := htended.held.trans hv.held
  idle := htended.openEdits.trans hv.idle
  distinct := htended.distinct hv.distinct
  unique := hkept.distinct hv.unique

theorem Sound.of_spared (hv : Sound s v) (hspared : Spared v v') : Sound s v' where
  toHooked := hv.toHooked.of_same (by rw [hspared.stores]) (fun st => by rw [hspared.store])
    hspared.attached hspared.subscription
  held := hspared.held.trans hv.held
  idle := by rw [hspared.bindings, hv.idle]
  distinct := by
    rw [hspared.bindings]
    exact hv.distinct
  unique := fun st => by
    rw [hspared.store]
    exact hv.unique st

/-- A session that does not hear of a store is not changed by its announcements. -/
theorem Chain.unheard {as : List Announcement} (hchain : Chain (Announced s t st) as v v')
    (hhooks : hooks s (v.store st) = []) : v' = v := by
  induction hchain with
  | nil v => rfl
  | cons hx hrest ih =>
      simp only [Announced] at hx
      rw [if_pos hhooks] at hx
      subst hx
      exact ih hhooks

theorem Revised.unheard {inPlace : Bool} (hrevised : Revised s t st inPlace v v')
    (hhooks : hooks s (v.store st) = []) : ∃ x, v' = v.putStore st x := by
  obtain ⟨x, hx, hedited⟩ := hrevised
  refine ⟨x.1, Chain.unheard hedited ?_⟩
  rw [hooks_putStore hx.listeners]
  exact hhooks

theorem Revisions.unheard {inPlace : Bool} (hrevisions : Revisions s t st inPlace v v')
    (hhooks : hooks s (v.store st) = []) :
    v'.bindings = v.bindings ∧ v'.exchanges = v.exchanges := by
  induction hrevisions with
  | refl => exact ⟨rfl, rfl⟩
  | tail hfirst hlast ih =>
      have hnone := ((Kept.revisions hfirst).hooks st).trans hhooks
      obtain ⟨x, rfl⟩ := hlast.unheard hnone
      exact ih

def attachedEvents (v : Standing) : List BreakEvent :=
  match v.session.store with
  | none => []
  | some st => (v.store st).events

theorem store_unsubscribed (v : Standing) (st st' : StoreId) (l : ListenerId) :
    (v.unsubscribed st (some l)).store st' =
      if st' = st ∧ st.index < v.stores.size then (v.store st).unsubscribe l else v.store st' :=
  store_putStore v st st' _

theorem hooks_unsubscribed {old : StoreId} {l : ListenerId} {v₁ : Standing} (hv : Hooked s v)
    (hstore : v.session.store = some old) (hl : v.session.subscription = some l)
    (hdealt : Dealt v.detached v₁) (st : StoreId) :
    hooks s ((v₁.unsubscribed old (some l)).store st) = [] := by
  have hstore₁ (st : StoreId) : v₁.store st = v.store st := hdealt.store st
  rw [store_unsubscribed, hstore₁, hstore₁, hdealt.stores]
  split
  · rename_i hst
    rw [hooks_unsubscribe, hv.attached old ⟨hstore, hst.2⟩, hl]
    simp
  · rename_i hst
    refine hv.others st fun hattached => hst ?_
    have hold : st = old := Option.some.inj (hattached.1.symm.trans hstore)
    exact ⟨hold, hold ▸ hattached.2⟩

/-- Letting go of a store unbinds what it holds, and that is all that the engine sees of it. -/
theorem LetGo.unbound (hv : Hooked s v) (hletgo : LetGo s t v v') :
    ∃ v₁, UnboundAll v.attachedEvents v.detached v₁ ∧ v'.bindings = v₁.bindings ∧
      v'.exchanges = v₁.exchanges := by
  simp only [LetGo] at hletgo
  simp only [attachedEvents]
  cases hstore : v.session.store with
  | none =>
      rw [hstore] at hletgo
      subst hletgo
      exact ⟨v.detached, Chain.nil _, rfl, rfl⟩
  | some old =>
      rw [hstore] at hletgo
      obtain ⟨v₁, hunbound, hreset⟩ := hletgo
      obtain ⟨l, hl⟩ := Option.isSome_iff_exists.mp (hv.subscribed (by simp [hstore]))
      rw [hl] at hreset
      have hdealt := UnboundAll.dealt hunbound
      obtain ⟨hbindings, hexchanges⟩ :=
        Revisions.unheard hreset (hooks_unsubscribed hv hstore hl hdealt old)
      exact ⟨v₁, hunbound, hbindings, hexchanges⟩

/-- What is left of the attached store when it was let go of. -/
theorem LetGo.clear (hv : Hooked s v) (hletgo : LetGo s t v v') :
    v'.session.store = none ∧ v'.stores.size = v.stores.size ∧
      (∀ st, hooks s (v'.store st) = []) ∧
      ((∀ st, (v.store st).Distinct) → ∀ st, (v'.store st).Distinct) := by
  simp only [LetGo] at hletgo
  cases hstore : v.session.store with
  | none =>
      rw [hstore] at hletgo
      subst hletgo
      exact ⟨rfl, rfl, fun st => hv.others st (by simp [Attached, hstore]), id⟩
  | some old =>
      rw [hstore] at hletgo
      obtain ⟨v₁, hunbound, hreset⟩ := hletgo
      obtain ⟨l, hl⟩ := Option.isSome_iff_exists.mp (hv.subscribed (by simp [hstore]))
      rw [hl] at hreset
      have hdealt := UnboundAll.dealt hunbound
      have hkept := Kept.revisions hreset
      refine ⟨?_, ?_, fun st => ?_, fun hunique => hkept.distinct fun st => ?_⟩
      · rw [hkept.session]
        change v₁.session.store = none
        rw [hdealt.session]
        rfl
      · rw [hkept.size]
        simp only [unsubscribed, putStore, Array.size_setIfInBounds, hdealt.stores]
        rfl
      · rw [hkept.hooks]
        exact hooks_unsubscribed hv hstore hl hdealt st
      · have hunique₁ (st : StoreId) : (v₁.store st).Distinct := by
          rw [hdealt.store]
          exact hunique st
        rw [store_unsubscribed]
        split
        · exact hunique₁ old
        · exact hunique₁ st

theorem hooks_subscribe (s : SessionId) (x : BreakpointStore Listener) :
    hooks s (x.subscribe (.session s)).2 = hooks s x ++ [(x.subscribe (.session s)).1] := by
  simp [hooks, BreakpointStore.subscribe]

theorem store_subscribed (v : Standing) (st st' : StoreId) :
    (v.subscribed s st).store st' =
      if st' = st ∧ st.index < v.stores.size then ((v.store st).subscribe (.session s)).2
      else v.store st' :=
  store_putStore v st st' _

theorem BoundIfStarted.dealt (hbound : BoundIfStarted st v v') : Dealt v v' := by
  simp only [BoundIfStarted] at hbound
  split at hbound
  · exact BoundAll.dealt hbound
  · exact hbound ▸ Dealt.refl v

theorem Hooked.subscribed_of_clear (hstore : v.session.store = some st)
    (hclear : ∀ st, hooks s (v.store st) = []) : Hooked s (v.subscribed s st) := by
  refine ⟨fun st' hst' => ?_, fun st' hst' => ?_, fun _ => rfl⟩
  · obtain rfl : st = st' := Option.some.inj (hstore.symm.trans hst'.1)
    have hlt : st.index < v.stores.size := by
      simpa [Standing.subscribed, putStore] using hst'.2
    rw [store_subscribed, if_pos ⟨rfl, hlt⟩, hooks_subscribe, hclear]
    rfl
  · rw [store_subscribed, if_neg, hclear]
    rintro ⟨rfl, hlt⟩
    exact hst' ⟨hstore, by simpa [Standing.subscribed, putStore] using hlt⟩

theorem Sound.swapped {new : Option StoreId} (hv : Sound s v) (hswapped : Swapped s t new v v') :
    Sound s v' := by
  have htended := Tended.swapped hswapped
  obtain ⟨v₁, hletgo, hattach⟩ := hswapped
  obtain ⟨hnone, hsize, hclear, hunique⟩ := hletgo.clear hv.toHooked
  cases new with
  | none =>
      subst hattach
      exact ⟨⟨fun st hst => (by cases hst.1), fun st _ => hclear st, fun h => (by cases h)⟩,
        htended.held.trans hv.held, htended.openEdits.trans hv.idle,
        htended.distinct hv.distinct, hunique hv.unique⟩
  | some st =>
      obtain ⟨v₂, hbound, rfl⟩ := hattach
      have hdealt := hbound.dealt
      have hstore₂ (st' : StoreId) : v₂.store st' = v₁.store st' := hdealt.store st'
      refine ⟨Hooked.subscribed_of_clear ?_ fun st' => ?_, htended.held.trans hv.held,
        htended.openEdits.trans hv.idle, htended.distinct hv.distinct, fun st' => ?_⟩
      · rw [hdealt.session]
        rfl
      · rw [hstore₂]
        exact hclear st'
      · rw [store_subscribed]
        split
        · rw [hstore₂]
          exact hunique hv.unique st
        · rw [hstore₂]
          exact hunique hv.unique st'

theorem Swapped.store {new : Option StoreId} (hswapped : Swapped s t new v v') :
    v'.session.store = new := by
  obtain ⟨v₁, -, hattach⟩ := hswapped
  cases new with
  | none => exact hattach ▸ rfl
  | some st =>
      obtain ⟨v₂, hbound, rfl⟩ := hattach
      change v₂.session.store = some st
      rw [hbound.dealt.session]
      rfl

/-- The store that is had is the attached one, if any is. -/
theorem Provided.store (hprovided : Provided s t v st v') {st' : StoreId}
    (hst' : v'.session.store = some st') : st' = st := by
  simp only [Provided] at hprovided
  split at hprovided
  · rename_i attached hattached
    obtain ⟨rfl, rfl⟩ := hprovided
    exact Option.some.inj (hst'.symm.trans hattached)
  · rename_i hnone
    obtain ⟨rfl, hprovided⟩ := hprovided
    split at hprovided
    · subst hprovided
      cases hnone.symm.trans hst'
    · obtain ⟨v₁, hswapped, rfl⟩ := hprovided
      exact Option.some.inj (hst'.symm.trans hswapped.store)

/-- Nothing is in a store that is had and not attached. -/
theorem Provided.attached (hprovided : Provided s t v st v') {e : BreakEvent}
    (he : e ∈ (v'.store st).events) : v'.session.store = some st := by
  simp only [Provided] at hprovided
  split at hprovided
  · rename_i attached hattached
    obtain ⟨rfl, rfl⟩ := hprovided
    exact hattached
  · obtain ⟨rfl, hprovided⟩ := hprovided
    split at hprovided
    · subst hprovided
      have hnothing : v.store ⟨v.stores.size⟩ = {} := store_of_size_le v (Nat.le_refl _)
      rw [store_withNewStore, hnothing] at he
      cases he
    · obtain ⟨v₁, hswapped, rfl⟩ := hprovided
      exact hswapped.store

theorem Provided.attachedEvents (hprovided : Provided s t v st v') :
    v'.attachedEvents = (v'.store st).events := by
  cases hstore : v'.session.store with
  | some st' =>
      obtain rfl := hprovided.store hstore
      simp only [Standing.attachedEvents, hstore]
  | none =>
      simp only [Standing.attachedEvents, hstore]
      refine (List.eq_nil_iff_forall_not_mem.mpr fun e he => ?_).symm
      cases hstore.symm.trans (hprovided.attached he)

/-- A new store has nothing to bind. -/
theorem Provided.idle (hprovided : Provided s t v st v') :
    v'.bindings = v.bindings ∧ v'.exchanges = v.exchanges := by
  simp only [Provided] at hprovided
  split at hprovided
  · rw [hprovided.2]
    exact ⟨rfl, rfl⟩
  · rename_i hnone
    obtain ⟨rfl, hprovided⟩ := hprovided
    split at hprovided
    · subst hprovided
      exact ⟨rfl, rfl⟩
    · obtain ⟨v₁, ⟨v₂, hletgo, v₃, hbound, rfl⟩, rfl⟩ := hprovided
      have hnone' : v.withNewStore.session.store = none := hnone
      simp only [LetGo, hnone'] at hletgo
      subst hletgo
      have hnothing : v.store ⟨v.stores.size⟩ = {} := store_of_size_le v (Nat.le_refl _)
      have hempty : ((v.withNewStore.detached.pointedAt (some ⟨v.stores.size⟩)).store
          ⟨v.stores.size⟩).events = [] := by
        change (v.withNewStore.store ⟨v.stores.size⟩).events = []
        rw [store_withNewStore, hnothing]
      simp only [BoundIfStarted, hempty] at hbound
      split at hbound
      · cases hbound
        exact ⟨rfl, rfl⟩
      · subst hbound
        exact ⟨rfl, rfl⟩

theorem Sound.withNewStore (hv : Sound s v) (hnone : v.session.store = none) :
    Sound s v.withNewStore where
  attached := fun st hst => by cases hnone.symm.trans hst.1
  others := fun st _ => by
    rw [store_withNewStore]
    exact hv.others st fun hst => by cases hnone.symm.trans hst.1
  subscribed := hv.subscribed
  held := hv.held
  idle := hv.idle
  distinct := hv.distinct
  unique := fun st => by
    rw [store_withNewStore]
    exact hv.unique st

theorem Sound.provided (hv : Sound s v) (hprovided : Provided s t v st v') : Sound s v' := by
  simp only [Provided] at hprovided
  split at hprovided
  · exact hprovided.2 ▸ hv
  · rename_i hnone
    have hnew := hv.withNewStore hnone
    obtain ⟨-, hprovided⟩ := hprovided
    split at hprovided
    · exact hprovided ▸ hnew
    · obtain ⟨v₁, hswapped, rfl⟩ := hprovided
      obtain ⟨⟨hattached, hothers, hsubscribed⟩, hheld, hidle, hdistinct, hunique⟩ :=
        hnew.swapped hswapped
      exact ⟨⟨hattached, hothers, hsubscribed⟩, hheld, hidle, hdistinct, hunique⟩

theorem Sound.dispatched (hv : Sound s v) (hdispatched : Dispatched s t v v') : Sound s v' := by
  rcases hdispatched with hspared | ⟨v₁, v₂, hspared, hswapped, hspared'⟩
  · exact hv.of_spared hspared
  · exact ((hv.of_spared hspared).swapped hswapped).of_spared hspared'

theorem Sound.of_dealt (hv : Sound s v) (hdealt : Dealt v v') : Sound s v' :=
  hv.of_kept (Kept.of_dealt hdealt) (Tended.of_dealt hdealt)

theorem Sound.initialized (hv : Sound s v) : Sound s v.initialized :=
  ⟨⟨hv.attached, hv.others, hv.subscribed⟩, hv.held, hv.idle, hv.distinct, hv.unique⟩

theorem Sound.started (hv : Sound s v) (hstarted : Started s t v v') : Sound s v' := by
  obtain ⟨v₁, st, v₂, hspared, hprovided, hbound⟩ := hstarted
  exact ((hv.of_spared hspared).initialized.provided hprovided).of_dealt (BoundAll.dealt hbound)

theorem Sound.revisions {inPlace : Bool} (hv : Sound s v)
    (hrevisions : Revisions s t st inPlace v v') : Sound s v' :=
  hv.of_kept (Kept.revisions hrevisions) (Tended.revisions hrevisions)

theorem Sound.adjusted {id : BreakEventId} {line : Nat} (hv : Sound s v)
    (hadjusted : Adjusted s t st id line v v') : Sound s v' := by
  have htended := Tended.adjusted hadjusted
  refine hv.of_kept ?_ htended
  simp only [Adjusted] at hadjusted
  split at hadjusted
  · subst hadjusted
    exact Kept.refl v'
  · subst hadjusted
    exact Kept.refl v'
  · rename_i x a hadjust
    obtain ⟨v₁, hchain, rfl⟩ := hadjusted
    have hediting : Kept s v (v.editing t) := ⟨rfl, rfl, fun _ => rfl, fun h => h⟩
    have hlisteners : x.listeners = ((v.editing t).store st).listeners :=
      BreakpointStore.listeners_adjust hadjust
    have hput : Kept s v ((v.editing t).putStore st x) :=
      hediting.trans (Kept.putStore hlisteners fun hx => BreakpointStore.distinct_adjust hx hadjust)
    have hmoved := hput.trans (Kept.of_dealt (Dealt.moved a.new _))
    have hchained := hmoved.trans (Kept.chain hchain fun _ _ _ h => Kept.of_dealt h.dealt)
    exact hchained.trans ⟨rfl, rfl, fun _ => rfl, fun h => h⟩

theorem Sound.effect {o : Operation} (hv : Sound s v) (heffect : Effect s t v o v') :
    Sound s v' := by
  cases o with
  | command k => exact hv.dispatched heffect
  | started thread => exact hv.started heffect
  | fileLoaded file =>
      simp only [Effect] at heffect
      split at heffect
      · exact hv.of_dealt (BoundAll.dealt heffect)
      · exact heffect ▸ hv
  | fileUnloaded file =>
      simp only [Effect] at heffect
      split at heffect
      · exact hv.of_dealt (Chain.dealt heffect fun r w _ hm => hm ▸ Dealt.remove w r.id)
      · exact heffect ▸ hv
  | setStatus handle status message =>
      obtain rfl : v' = _ := heffect
      exact ⟨⟨hv.attached, hv.others, hv.subscribed⟩, hv.held,
        (BindingTable.setStatus_openEdits _ _ _ _).trans hv.idle, hv.distinct.setStatus _ _ _,
        hv.unique⟩
  | adjust id line =>
      simp only [Effect] at heffect
      split at heffect
      · exact heffect ▸ hv
      · exact hv.adjusted heffect
  | attach new => exact hv.swapped heffect
  | breakpoints =>
      obtain ⟨st, hprovided⟩ := heffect
      exact hv.provided hprovided
  | edit st e => exact hv.revisions (Effect.revisions rfl heffect)
  | adjustLine st id line => exact hv.revisions (Effect.revisions rfl heffect)
  | resetAdjusted st => exact hv.revisions heffect
  | _ => exact hv.of_spared heffect

def TurnEffect (s : SessionId) (v : Standing) : Turn → Standing → Prop
  | .perform t o, v' => Effect s t v o v'
  | .work, v' => Dispatched s (.worker s) v v'
  | .choose _ _, v' => Spared v v'

structure Lasting (v v' : Standing) : Prop where
  config : v'.session.config = v.session.config
  grown : v.exchanges <+: v'.exchanges

namespace Lasting

theorem refl (v : Standing) : Lasting v v := ⟨rfl, List.prefix_refl _⟩

theorem trans {v'' : Standing} (hv : Lasting v v') (hv' : Lasting v' v'') : Lasting v v'' :=
  ⟨hv'.config.trans hv.config, hv.grown.trans hv'.grown⟩

theorem of_tended (hv : Tended v v') : Lasting v v' := ⟨hv.config, hv.grown⟩

theorem of_spared (hv : Spared v v') : Lasting v v' := ⟨hv.config, hv.grown⟩

theorem dispatched (hv : Dispatched s t v v') : Lasting v v' := by
  rcases hv with hspared | ⟨v₁, v₂, hspared, hswapped, hspared'⟩
  · exact of_spared hspared
  · exact ((of_spared hspared).trans (of_tended (Tended.swapped hswapped))).trans
      (of_spared hspared')

theorem effect {o : Operation} (heffect : Effect s t v o v') : Lasting v v' := by
  cases o with
  | command k => exact dispatched heffect
  | started thread =>
      obtain ⟨v₁, st, v₂, hspared, hprovided, hbound⟩ := heffect
      have hinitialized : Lasting v₁ v₁.initialized := ⟨rfl, List.prefix_refl _⟩
      have htended := (Tended.provided hprovided).trans (Tended.boundAll hbound)
      exact ((of_spared hspared).trans hinitialized).trans (of_tended htended)
  | fileLoaded file =>
      simp only [Effect] at heffect
      split at heffect
      · exact of_tended (Tended.boundAll heffect)
      · exact heffect ▸ refl v
  | fileUnloaded file =>
      simp only [Effect] at heffect
      split at heffect
      · exact of_tended (Tended.forgotten heffect)
      · exact heffect ▸ refl v
  | setStatus handle status message =>
      obtain rfl : v' = _ := heffect
      exact ⟨rfl, List.prefix_refl _⟩
  | adjust id line =>
      simp only [Effect] at heffect
      split at heffect
      · exact heffect ▸ refl v
      · exact of_tended (Tended.adjusted heffect)
  | attach new => exact of_tended (Tended.swapped heffect)
  | breakpoints =>
      obtain ⟨st, hprovided⟩ := heffect
      exact of_tended (Tended.provided hprovided)
  | edit st e => exact of_tended (Tended.revisions (Effect.revisions rfl heffect))
  | adjustLine st id line => exact of_tended (Tended.revisions (Effect.revisions rfl heffect))
  | resetAdjusted st => exact of_tended (Tended.revisions heffect)
  | _ => exact of_spared heffect

theorem turn {turn : Turn} (hturn : TurnEffect s v turn v') : Lasting v v' := by
  cases turn with
  | work => exact dispatched hturn
  | perform t o => exact effect hturn
  | choose m hm => exact of_spared hturn

end Lasting

theorem Sound.turn {turn : Turn} (hv : Sound s v) (hturn : TurnEffect s v turn v') : Sound s v' := by
  cases turn with
  | perform t o => exact hv.effect hturn
  | work => exact hv.dispatched hturn
  | choose m hm => exact hv.of_spared hturn

end Standing

namespace World

variable {σ : Type}

def session (w : World σ) (s : SessionId) : Session := w.sessions.getD s.index default

def store (w : World σ) (st : StoreId) : BreakpointStore Listener := w.stores.getD st.index {}

def waiting (w : World σ) (s : SessionId) (file : String) : List BindingRecord :=
  (w.session s).bindings.recordsWhere fun r =>
    (r.status == .notBound || r.status == .bindError) && SessionId.isIn w.directory file r

/-- A session has just been opened, so that nothing knows of it. -/
structure Opened (w : World σ) (s : SessionId) (config : SessionConfig) : Prop where
  session : ∃ output, w.sessions[s.index]? = some (Session.new config output)
  unknown : ∀ st, ∀ l ∈ (w.store st).listeners, l.2 ≠ .session s
  distinct : ∀ st, (w.store st).Distinct

end World

def Turn.asked {σ : Type} (h : Host σ) (L : Ledger σ) (w : World σ) (turn : Turn) : List Exchange :=
  (L.entries (turn.after h L.session w).host).drop (L.entries w.host).length

namespace Ledger

variable {σ : Type} {L : Ledger σ} {h : Host σ} {w : World σ} {v : Standing}

theorem Shows.world_session (hw : L.Shows w v) : w.session L.session = v.session := by
  simp only [World.session]
  rw [Array.getD_eq_getD_getElem?, hw.session]
  rfl

theorem Shows.world_store (hw : L.Shows w v) (st : StoreId) : w.store st = v.store st := by
  simp only [World.store, Standing.store]
  rw [hw.stores]

theorem Shows.waiting (hw : L.Shows w v) (file : String) :
    w.waiting L.session file = v.waiting file := by
  simp only [World.waiting, hw.world_session, hw.directory]
  rfl

theorem Shows.withSession (hw : L.Shows w v) (m : Session → Session) :
    L.Shows (w.withSession L.session m) { v with session := m v.session } := by
  refine ⟨?_, hw.stores, hw.directory, hw.exchanges⟩
  rw [World.withSession_getElem?, if_pos rfl, hw.session]
  rfl

structure Knows (L : Ledger σ) (config : SessionConfig) (w : World σ) (v : Standing) : Prop where
  seen : L.Shows w v
  sound : Standing.Sound L.session v
  configured : v.session.config = config

theorem knows_of_opened {config : SessionConfig} (hopened : w.Opened L.session config) :
    ∃ v output, L.Knows config w v ∧ v.session = Session.new config output := by
  obtain ⟨output, hsession⟩ := hopened.session
  refine ⟨⟨Session.new config output, w.stores, w.directory, L.entries w.host⟩, output,
    ⟨⟨hsession, rfl, rfl, rfl⟩, ⟨⟨fun st hst => (by cases hst.1), fun st _ => ?_,
      fun h => (by cases h)⟩, rfl, rfl, List.nodup_nil, hopened.distinct⟩, rfl⟩, rfl⟩
  simp only [Standing.hooks]
  rw [List.map_eq_nil_iff, List.filter_eq_nil_iff]
  intro l hl
  simpa using hopened.unknown st l hl

theorem Quiet.turn (quiet : L.Quiet h) (hw : L.Shows w v) (hv : Standing.Sound L.session v)
    (turn : Turn) :
    ∃ v', L.Shows (turn.after h L.session w) v' ∧ Standing.TurnEffect L.session v turn v' := by
  cases turn with
  | perform t o =>
      obtain ⟨x, w', v', hrun, hw', heffect⟩ := quiet.perform (c := ⟨t, [], []⟩) hv.wired o w hw
      refine ⟨v', ?_, heffect⟩
      change L.Shows (Act.run _ _ w).2 v'
      rwa [hrun]
  | work =>
      obtain ⟨x, w', v', hrun, hw', heffect⟩ :=
        quiet.workNext (c := ⟨.worker L.session, [], []⟩) hv.wired rfl w hw
      refine ⟨v', ?_, heffect⟩
      change L.Shows (Act.run _ _ w).2 v'
      rwa [hrun]
  | choose m hm => exact ⟨_, hw.withSession m, Standing.Spared.chosen v hm⟩

theorem Knows.turn {config : SessionConfig} (quiet : L.Quiet h) (hv : L.Knows config w v)
    (turn : Turn) : ∃ v', L.Knows config (turn.after h L.session w) v' ∧
      Standing.TurnEffect L.session v turn v' := by
  obtain ⟨v', hw', hturn⟩ := quiet.turn hv.seen hv.sound turn
  have hconfig := (Standing.Lasting.turn hturn).config
  exact ⟨v', ⟨hw', hv.sound.turn hturn, hconfig.trans hv.configured⟩, hturn⟩

theorem Knows.afterAll {config : SessionConfig} (quiet : L.Quiet h) (hv : L.Knows config w v)
    (turns : List Turn) : ∃ v', L.Knows config (Turn.afterAll h L.session w turns) v' := by
  induction turns generalizing w v with
  | nil => exact ⟨v, hv⟩
  | cons turn rest ih =>
      obtain ⟨v', hv', -⟩ := hv.turn quiet turn
      exact ih hv'

end Ledger

end DebugSession
