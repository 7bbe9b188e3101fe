import DebugSession.Proofs.Scripted
import DebugSession.Proofs.Yield

namespace DebugSession

open Act

namespace StoreView

/-- A copy after an announcement. Whatever was changed of an event, the copy takes it over whole. -/
def mirrored (m : StoreView) (a : Announcement) : StoreView :=
  match a.change with
  | .added => m.put a.event
  | .removed => m.erase a.event.id
  | .modified | .enableChanged => m.modify a.event.id fun _ => a.event
  | .statusChanged => m

def mirroredAll (m : StoreView) (as : List Announcement) : StoreView := as.foldl mirrored m

/-- It makes no difference if a listener hears of a change twice. -/
theorem mirrored_mirrored (m : StoreView) (a : Announcement) :
    (m.mirrored a).mirrored a = m.mirrored a := by
  funext id
  cases hchange : a.change <;> simp only [mirrored, hchange]
  case added => by_cases hid : id = a.event.id <;> simp [put, hid]
  case removed => by_cases hid : id = a.event.id <;> simp [erase, hid]
  case modified | enableChanged =>
    by_cases hid : id = a.event.id
    · cases hm : m a.event.id <;> simp [modify, hid, hm]
    · simp [modify, hid]

theorem mirrored_eq_told (m : StoreView) {a : Announcement} (ha : a.change ≠ .enableChanged) :
    m.mirrored a = m.told a := by
  cases hchange : a.change <;> simp_all [mirrored, told]

theorem mirroredAll_eq_toldAll (m : StoreView) {as : List Announcement}
    (has : ∀ a ∈ as, a.change ≠ .enableChanged) : m.mirroredAll as = m.toldAll as := by
  induction as generalizing m with
  | nil => rfl
  | cons a rest ih =>
      change (m.mirrored a).mirroredAll rest = (m.told a).toldAll rest
      rw [mirrored_eq_told m (has a List.mem_cons_self)]
      exact ih _ fun b hb => has b (List.mem_cons_of_mem a hb)

end StoreView

namespace BreakpointStore

variable {κ : Type} {x y : BreakpointStore κ}

/-- Switching an event on or off is told with the whole event. -/
theorem mirroredAll_edit (x : BreakpointStore κ) (change : Change) {old : BreakEvent}
    (new : BreakEvent) (hold : x.get? new.id = some old)
    (hchange : ∀ m : StoreView, m.mirrored ⟨change, new⟩ = m.modify new.id fun _ => new) :
    (x.edit change old new).1.view = x.view.mirroredAll (x.edit change old new).2 := by
  simp only [edit]
  rw [view_replace]
  split
  · rename_i hsame
    subst hsame
    funext id
    by_cases hid : id = old.id
    · simp [StoreView.modify, StoreView.mirroredAll, view, hid, hold]
    · simp [StoreView.modify, StoreView.mirroredAll, hid]
  · exact (hchange x.view).symm

theorem mirroredAll_apply {e : Edit} {as : List Announcement} (he : x.apply e = .ok (y, as)) :
    y.view = x.view.mirroredAll as := by
  have hreplay (hplace : e.inPlace = false) : y.view = x.view.mirroredAll as := by
    rw [replay_apply he]
    refine (StoreView.mirroredAll_eq_toldAll _ fun a ha hchange => ?_).symm
    have hinPlace := inPlace_apply he ha
    rw [hchange, hplace] at hinPlace
    cases hinPlace
  cases e with
  | add e => exact hreplay rfl
  | remove id => exact hreplay rfl
  | clear => exact hreplay rfl
  | enable id on =>
      simp only [apply] at he
      split at he
      · cases he
      · rename_i old hold
        cases he
        obtain rfl := id_of_get? hold
        exact mirroredAll_edit x .enableChanged { old with enabled := on } hold fun _ => rfl
  | condition id text =>
      simp only [apply] at he
      split at he
      · cases he
      · rename_i old hold
        cases he
        obtain rfl := id_of_get? hold
        exact mirroredAll_edit x .modified { old with condition := text } hold fun _ => rfl
  | move id line =>
      simp only [apply] at he
      split at he
      · cases he
      · rename_i old hold
        cases he
        obtain rfl := id_of_get? hold
        rw [← old.withLine_id line] at hold
        exact mirroredAll_edit (x.forget old.id) .modified (old.withLine line) hold fun _ => rfl

theorem mirroredAll_adjust {id : BreakEventId} {line : Nat} {a : LineAdjustment}
    (ha : x.adjust id line = .ok (y, some a)) : y.view = x.view.mirroredAll a.announcements := by
  rw [replay_adjust ha]
  refine (StoreView.mirroredAll_eq_toldAll _ fun b hb hchange => ?_).symm
  have hinPlace := (told_adjust ha).inPlace b hb
  rw [hchange] at hinPlace
  cases hinPlace

theorem mirroredAll_restore (x : BreakpointStore κ) (id : BreakEventId) (line : Nat) :
    (x.restore id line).1.view = x.view.mirroredAll (x.restore id line).2 := by
  rw [replay_restore]
  simp only [restore]
  cases x.get? id <;> rfl

end BreakpointStore

structure Mirror (σ : Type) where
  callback : CallbackId
  store : StoreId
  copy : σ → StoreView

namespace Mirror

variable {σ : Type} (M : Mirror σ)

def Listens (w : World σ) : Prop :=
  ∃ id, (id, .external M.callback) ∈ (w.store M.store).listeners

/-- The listener is there and has been told of all but the last changes. -/
structure Owed (as : List Announcement) (w : World σ) : Prop where
  listens : M.Listens w
  view : (w.store M.store).view = (M.copy w.host).mirroredAll as

abbrev Settled (w : World σ) : Prop := M.Owed [] w

def Faithful (w : World σ) : Prop := M.Listens w ∧ M.copy w.host = (w.store M.store).view

structure Undisturbed (w w' : World σ) : Prop where
  copy : M.copy w'.host = M.copy w.host
  view : (w'.store M.store).view = (w.store M.store).view
  listens : M.Listens w → M.Listens w'

def frame : World.Frame σ where
  rel := M.Undisturbed
  refl := fun _ => ⟨rfl, rfl, id⟩
  trans := fun h h' => ⟨h'.copy.trans h.copy, h'.view.trans h.view, h'.listens ∘ h.listens⟩
  session := fun _ _ _ => ⟨rfl, rfl, id⟩

/-- The mirror takes over what it is told, and no call of the host changes the store, touches the
copy otherwise, or ends the subscription. -/
structure Serves (h : Host σ) : Prop where
  tells : ∀ a c w, Yields (h.storeChanged M.callback M.store a) c w fun _ w' =>
    M.copy w'.host = (M.copy w.host).mirrored a ∧
      (w'.store M.store).view = (w.store M.store).view ∧ (M.Listens w → M.Listens w')
  others : ∀ k st a, ¬(k = M.callback ∧ st = M.store) → Within M.frame (h.storeChanged k st a)
  vetoes : ∀ k st, Within M.frame (h.vetoes k st)
  keeps : h.Keeps M.frame

variable {M} {h : Host σ} {as : List Announcement} {c : Scope} {w w' : World σ}

theorem Owed.faithful (hw : M.Settled w) : M.Faithful w := ⟨hw.listens, hw.view.symm⟩

theorem Owed.undisturbed (hw : M.Owed as w) (hframe : M.frame.rel w w') : M.Owed as w' :=
  ⟨hframe.listens hw.listens, by rw [hframe.view, hframe.copy, hw.view]⟩

theorem Owed.within {α : Type} {a : Act σ α} (hw : M.Owed as w) (ha : Within M.frame a) :
    Yields a c w fun _ w' => M.Owed as w' :=
  (ha c w).mono fun _ _ => hw.undisturbed

/-- A change of the store, before anyone is told. -/
theorem Owed.putStore (hw : M.Settled w) {y : BreakpointStore Listener}
    (hlisteners : y.listeners = (w.store M.store).listeners)
    (hview : y.view = (w.store M.store).view.mirroredAll as) :
    M.Owed as (w.putStore M.store y) := by
  obtain ⟨id, hl⟩ := hw.listens
  have hlt := World.lt_size_of_listener hl
  have hstore : (w.putStore M.store y).store M.store = y := by
    rw [World.store_putStore, if_pos ⟨rfl, hlt⟩]
  refine ⟨⟨id, ?_⟩, ?_⟩
  · rw [hstore, hlisteners]
    exact hl
  · rw [hstore, hview, hw.view]
    rfl

/-- Among the listeners of a round the mirror is told at least once, unless it has been already. -/
theorem Serves.round (hM : M.Serves h) (a : Announcement) (m v : StoreView)
    (ls : List (ListenerId × Listener)) (hlistens : M.Listens w)
    (hview : (w.store M.store).view = v)
    (hcopy : M.copy w.host = m.mirrored a ∨
      M.copy w.host = m ∧ ∃ id, (id, .external M.callback) ∈ ls) :
    Yields (ls.forM fun (_, listener) => match listener with
      | .session s => s.follow h a
      | .external k => h.storeChanged k M.store a) c w fun _ w' =>
        M.Listens w' ∧ (w'.store M.store).view = v ∧ M.copy w'.host = m.mirrored a := by
  induction ls generalizing w with
  | nil =>
      refine Yields.pure ⟨hlistens, hview, hcopy.resolve_right ?_⟩
      rintro ⟨-, id, hmem⟩
      cases hmem
  | cons l rest ih =>
      obtain ⟨id, listener⟩ := l
      by_cases hmirror : listener = .external M.callback
      · subst hmirror
        refine (hM.tells a c w).bind fun _ w' hw' => ?_
        refine ih (hw'.2.2 hlistens) (hw'.2.1.trans hview) (.inl ?_)
        rcases hcopy with hcopy | ⟨hcopy, -⟩
        · rw [hw'.1, hcopy, StoreView.mirrored_mirrored]
        · rw [hw'.1, hcopy]
      · have hother : Within M.frame (match listener with
            | .session s => s.follow h a
            | .external k => h.storeChanged k M.store a) := by
          cases listener with
          | session s => exact hM.keeps.follow s a
          | external k => exact hM.others k M.store a fun hk => hmirror (by rw [hk.1])
        refine (hother c w).bind fun _ w' hw' => ?_
        refine ih (hw'.listens hlistens) (hw'.view.trans hview) ?_
        rw [hw'.copy]
        refine hcopy.imp_right fun hcopy => ⟨hcopy.1, ?_⟩
        obtain ⟨id', hmem⟩ := hcopy.2
        rcases List.mem_cons.mp hmem with heq | hmem
        · exact absurd (Prod.mk.inj heq).2.symm hmirror
        · exact ⟨id', hmem⟩

theorem Serves.announce (hM : M.Serves h) {a : Announcement} (hw : M.Owed (a :: as) w) :
    Yields (M.store.announce h a) c w fun _ w' => M.Owed as w' := by
  refine Yields.store ?_
  refine (hM.round a _ _ _ hw.listens rfl (.inr ⟨rfl, hw.listens⟩)).mono fun _ w' hw' => ?_
  refine ⟨hw'.1, ?_⟩
  rw [hw'.2.1, hw'.2.2, hw.view]
  rfl

theorem Serves.announceAll (hM : M.Serves h) (hw : M.Owed as w) :
    Yields (M.store.announceAll h as) c w fun _ w' => M.Settled w' :=
  Yields.forM (fun rest w => M.Owed rest w) hw fun _ _ _ hw' => hM.announce hw'

theorem Serves.edit (hM : M.Serves h) (hw : M.Settled w) (e : Edit) :
    Yields (M.store.edit h e) c w fun _ w' => M.Settled w' := by
  refine (hw.within (hM.keeps.storeIsReadOnly fun k => hM.vetoes k M.store)).bind
    fun readOnly w₁ hw₁ => ?_
  cases readOnly with
  | true => exact Yields.pure hw₁
  | false =>
      refine Yields.store ?_
      cases happly : (w₁.store M.store).apply e with
      | error err => exact Yields.pure hw₁
      | ok y =>
          have hw₂ : M.Owed y.2 (w₁.putStore M.store y.1) :=
            hw₁.putStore (BreakpointStore.listeners_apply happly)
              (BreakpointStore.mirroredAll_apply happly)
          exact Yields.setStore ((hM.announceAll hw₂).bind fun _ w' hw' => Yields.pure hw')

/-- A move of an event, which is not told yet. -/
theorem Settled.move (hw : M.Settled w) (id : BreakEventId) (line : Nat) :
    Yields (M.store.move id line : Act σ _) c w fun r w' => match r with
      | .ok (some a) => M.Owed a.announcements w'
      | _ => M.Settled w' := by
  refine (Yields.moved M.store id line c w).mono fun r w' hr => ?_
  rcases r with err | (_ | a)
  · obtain ⟨-, rfl⟩ := hr
    exact hw
  · obtain ⟨-, rfl⟩ := hr
    exact hw
  · obtain ⟨y, hy, rfl⟩ := hr
    exact hw.putStore (BreakpointStore.listeners_adjust hy) (BreakpointStore.mirroredAll_adjust hy)

theorem Serves.adjust (hM : M.Serves h) (hw : M.Settled w) (id : BreakEventId) (line : Nat) :
    Yields (M.store.adjust h id line) c w fun _ w' => M.Settled w' := by
  refine (Settled.move hw id line).bind fun r w₁ hw₁ => ?_
  rcases r with err | (_ | a)
  · exact Yields.pure hw₁
  · exact Yields.pure hw₁
  · exact (hM.announceAll hw₁).bind fun _ w' hw' => Yields.pure hw'

theorem Serves.resetAdjusted (hM : M.Serves h) (hw : M.Settled w) :
    Yields (M.store.resetAdjusted h) c w fun _ w' => M.Settled w' := by
  refine Yields.store (Yields.setStore ?_)
  refine Yields.forM (fun _ w => M.Settled w) (hw.putStore rfl rfl) fun a rest w₁ hw₁ => ?_
  refine Yields.store (Yields.setStore (hM.announceAll ?_))
  exact hw₁.putStore (BreakpointStore.listeners_restore _ _ _)
    (BreakpointStore.mirroredAll_restore _ _ _)

theorem frame_putStore {st : StoreId} (hst : st ≠ M.store) (w : World σ)
    (y : BreakpointStore Listener) : M.frame.rel w (w.putStore st y) := by
  have hstore : (w.putStore st y).store M.store = w.store M.store := by
    rw [World.store_putStore, if_neg fun h => hst h.1.symm]
  refine ⟨rfl, by rw [hstore], fun hlistens => ?_⟩
  rwa [Listens, hstore]

theorem Settled.sessionMove (hw : M.Settled w) (s : SessionId) (id : BreakEventId) (line : Nat) :
    Yields (s.move M.store id line : Act σ _) c w fun r w' => match r with
      | .ok (some a) => M.Owed a.announcements w'
      | _ => M.Settled w' := by
  refine (Yields.movedRecorded M.frame s M.store id line c w).mono fun r w' hr => ?_
  rcases r with err | (_ | a)
  · obtain rfl : w' = w := hr
    exact hw
  · obtain rfl : w' = w := hr
    exact hw
  · obtain ⟨y, hy, hw'⟩ := hr
    exact (hw.putStore (BreakpointStore.listeners_adjust hy)
      (BreakpointStore.mirroredAll_adjust hy)).undisturbed hw'

theorem Serves.sessionAdjust (hM : M.Serves h) (hw : M.Settled w) (s : SessionId)
    (id : BreakEventId) (line : Nat) :
    Yields (s.adjust h id line) c w fun _ w' => M.Settled w' := by
  refine Yields.session ?_
  cases (w.session s).store with
  | none => exact Yields.pure hw
  | some st =>
      refine Yields.thread ?_
      refine Yields.bind (hw.within (Within.modifySession s _)) fun _ w₁ hw₁ => ?_
      refine Yields.followedBy (P := fun _ w' => M.Settled w') ?_ fun _ w₂ hw₂ =>
        hw₂.within (Within.modifySession s _)
      by_cases hst : st = M.store
      · subst hst
        refine (Settled.sessionMove hw₁ s id line).bind fun r w₂ hw₂ => ?_
        rcases r with err | (_ | a)
        · exact Yields.pure hw₂
        · exact Yields.pure hw₂
        · exact (hM.announceAll hw₂).bind fun _ _ hw₃ => Yields.pure hw₃
      · exact hw₁.within (hM.keeps.moveAndTell
          (fun k a => hM.others k st a fun hk => hst hk.2) (frame_putStore hst) s id line)

end Mirror

inductive StoreCall
  | edit (e : Edit)
  | adjust (id : BreakEventId) (line : Nat)
  | relocate (s : SessionId) (id : BreakEventId) (line : Nat)
  | resetAdjusted

namespace StoreCall

variable {σ : Type} (h : Host σ) (st : StoreId)

def perform : StoreCall → Act σ Unit
  | edit e => discard (st.edit h e)
  | adjust id line => discard (st.adjust h id line)
  | relocate s id line => discard (s.adjust h id line)
  | resetAdjusted => st.resetAdjusted h

end StoreCall

namespace Mirror

variable {σ : Type} (M : Mirror σ) (h : Host σ)

def step (w : World σ) (call : Scope × StoreCall) : World σ :=
  (run (call.2.perform h M.store) call.1 w).2

def Panics (w : World σ) (call : Scope × StoreCall) : Prop :=
  ∃ p, (run (call.2.perform h M.store) call.1 w).1 = .error p

variable {M h} {w : World σ}

theorem Serves.perform (hM : M.Serves h) (hw : M.Settled w) (c : Scope) (call : StoreCall) :
    Yields (call.perform h M.store) c w fun _ w' => M.Settled w' := by
  cases call with
  | edit e => exact (hM.edit hw e).discard
  | adjust id line => exact (hM.adjust hw id line).discard
  | relocate s id line => exact (hM.sessionAdjust hw s id line).discard
  | resetAdjusted => exact hM.resetAdjusted hw

/-- A listener that subscribes with an exact copy has an exact copy after every operation on the
store, whether that is refused or not, and every operation ends. -/
theorem mirrors_throughout (hM : M.Serves h) (hst : M.store.index < w.stores.size)
    (hcopy : M.copy w.host = (w.store M.store).view) (c : Scope)
    (calls : List (Scope × StoreCall)) :
    let w' := (run (M.store.subscribe (.external M.callback)) c w).2
    Throughout (M.step h) M.Faithful w' calls ∧ Nowhere (M.step h) (M.Panics h) w' calls := by
  intro w'
  have hw' : M.Settled w' := by
    have hstore : w'.store M.store = ((w.store M.store).subscribe (.external M.callback)).2 := by
      change (w.putStore M.store _).store M.store = _
      rw [World.store_putStore, if_pos ⟨rfl, hst⟩]
      rfl
    refine ⟨⟨⟨(w.store M.store).nextListener⟩, ?_⟩, ?_⟩
    · rw [hstore]
      exact List.mem_append_right _ List.mem_cons_self
    · rw [hstore]
      exact hcopy.symm
  -- How the world came about does not matter any more, only that the mirror is settled in it.
  clear_value w'
  induction calls generalizing w' with
  | nil => exact ⟨hw'.faithful, trivial⟩
  | cons call rest ih =>
      obtain ⟨_, w'', hrun, hw''⟩ := hM.perform hw' call.1 call.2
      have hstep : M.step h w' call = w'' := by rw [step, hrun]
      have hpanics : ¬M.Panics h w' call := by
        rintro ⟨p, hp⟩
        rw [hrun] at hp
        cases hp
      obtain ⟨hthroughout, hnowhere⟩ := ih w'' hw''
      exact ⟨⟨hw'.faithful, hstep ▸ hthroughout⟩, ⟨hpanics, hstep ▸ hnowhere⟩⟩

end Mirror

namespace Mirroring

abbrev State := Simulation.Memory × List Announcement

def mirror : Mirror State where
  callback := ⟨0⟩
  store := ⟨0⟩
  copy x := StoreView.mirroredAll (fun _ => none) x.2

def host : Host State :=
  { Simulation.host default with
    engine := fun _ => Engine.answering fun q => ExceptT.mk (return Scripted.willing [] q)
    storeChanged := fun k st a =>
      if k = ⟨0⟩ ∧ st = ⟨0⟩ then modifyHost fun x => (x.1, x.2 ++ [a]) else return
    vetoes := fun _ _ => return false
    write := fun _ _ _ => return
    handleFault := fun _ _ => return false }

def shared : World State :=
  { host := (default, [])
    sessions := #[{ Session.new default ⟨0⟩ with lifecycle := { started := true } }]
    stores := #[{ listeners := [(⟨0⟩, .session ⟨0⟩), (⟨1⟩, .external ⟨1⟩)], nextListener := 2 }]
    routers := #[{}] }

theorem keeps (F : World.Frame State) : host.Keeps F :=
  ⟨fun _ q => Within.pure (Scripted.willing [] q), fun _ => Within.pure true,
    fun _ _ _ => Within.pure (), fun _ _ => Within.pure false⟩

theorem serves : mirror.Serves host where
  tells := fun a c w => by
    refine ⟨(), { w with host := (w.host.1, w.host.2 ++ [a]) }, rfl, ?_, rfl, id⟩
    exact List.foldl_append
  others := fun k st a hk c w => by
    have hquiet : host.storeChanged k st a = pure () := if_neg hk
    rw [hquiet]
    exact Yields.pure (mirror.frame.refl w)
  vetoes := fun _ _ => Within.pure false
  keeps := keeps mirror.frame

def caller : Scope := ⟨.caller 0, [], []⟩

def calls : List (Scope × StoreCall) :=
  [(caller, .edit (.add (Scripted.breakpoint 1 10))), (caller, .edit (.enable ⟨1⟩ false)),
    (caller, .adjust ⟨1⟩ 12), (caller, .edit (.condition ⟨2⟩ none)), (caller, .resetAdjusted),
    (caller, .edit .clear)]

theorem mirrored_beside_session : mirror.Serves host ∧
    mirror.store.index < shared.stores.size ∧
    mirror.copy shared.host = (shared.store mirror.store).view ∧
    Throughout (mirror.step host) mirror.Faithful
      (run (mirror.store.subscribe (.external mirror.callback)) caller shared).2 calls :=
  ⟨serves, by decide, rfl, (Mirror.mirrors_throughout serves (by decide) rfl caller calls).1⟩

end Mirroring

end DebugSession
