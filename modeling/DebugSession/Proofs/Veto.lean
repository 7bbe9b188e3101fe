import DebugSession.Proofs.Mirror

namespace DebugSession

open Act

def Edit.target : Edit → Option BreakEventId
  | .add _ | .clear => none
  | .remove id | .enable id _ | .condition id _ | .move id _ => some id

namespace BreakpointStore

variable {κ : Type} {x : BreakpointStore κ}

theorem apply_error_iff {e : Edit} {err : StoreError} : x.apply e = .error err ↔
    ∃ id, e.target = some id ∧ x.get? id = none ∧ err = .unknownBreakEvent id := by
  cases e with
  | add e => simp [apply, Edit.target]
  | clear => simp [apply, Edit.target]
  | remove id | enable id _ | condition id _ | move id _ =>
      cases hget : x.get? id <;> simp [apply, Edit.target, hget, eq_comm]

theorem adjust_error_iff {id : BreakEventId} {line : Nat} {err : StoreError} :
    x.adjust id line = .error err ↔ x.get? id = none ∧ err = .unknownBreakEvent id := by
  simp only [adjust]
  cases hget : x.get? id with
  | none => simp [eq_comm]
  | some e =>
      refine iff_of_false (fun h => ?_) (by simp)
      dsimp only at h
      split at h
      · cases h
      · split at h <;> cases h

end BreakpointStore

variable {σ : Type}

def Listener.forbids (h : Host σ) (st : StoreId) : Listener → Act σ Bool
  | .session s => entering s false (s.isReadOnly h)
  | .external k => h.vetoes k st

namespace World

def sameStores : Frame σ where
  rel w w' := w'.stores = w.stores
  refl _ := rfl
  trans h h' := h'.trans h
  session _ _ _ := rfl

def anything : Frame σ where
  rel _ _ := True
  refl _ := trivial
  trans _ _ := trivial
  session _ _ _ := trivial

end World

/-- Whoever is called returns, and leaves the stores alone if he is only asked for his opinion. -/
structure Host.Courteous (h : Host σ) : Prop where
  vetoes : ∀ k st, Within World.sameStores (h.vetoes k st)
  allowsChanges : ∀ s, Within World.sameStores (h.engine s).allowsChanges
  storeChanged : ∀ k st a, Within World.anything (h.storeChanged k st a)
  keeps : h.Keeps World.anything

def Host.opining (h : Host σ) (vetoes : CallbackId → StoreId → Act σ Bool)
    (allows : SessionId → Act σ Bool) : Host σ :=
  { h with
    vetoes := vetoes
    engine := fun s => { h.engine s with allowsChanges := allows s } }

namespace StoreId

variable (h : Host σ) (st : StoreId) (c : Scope)

def asked (w : World σ) (ls : List (ListenerId × Listener)) : World σ :=
  ls.foldl (fun w l => (run (l.2.forbids h st) c w).2) w

/-- Some listener forbids the edit when it is its turn to be asked. -/
def Forbidden (w : World σ) (ls : List (ListenerId × Listener)) : Prop :=
  ∃ before l after, ls = before ++ l :: after ∧
    (run (l.2.forbids h st) c (st.asked h c w before)).1 = .ok true

variable {h st c} {w w₁ : World σ} {ls : List (ListenerId × Listener)}

theorem forbidden_cons (l : ListenerId × Listener) : st.Forbidden h c w (l :: ls) ↔
    (run (l.2.forbids h st) c w).1 = .ok true ∨
      st.Forbidden h c (run (l.2.forbids h st) c w).2 ls := by
  constructor
  · rintro ⟨before, l', after, heq, hl'⟩
    cases before with
    | nil =>
        cases heq
        exact .inl hl'
    | cons b before =>
        cases heq
        exact .inr ⟨before, l', after, rfl, hl'⟩
  · rintro (hl | ⟨before, l', after, rfl, hl'⟩)
    · exact ⟨[], l, ls, rfl, hl⟩
    · exact ⟨l :: before, l', after, rfl, hl'⟩

variable (h st c) in
def Steady (w : World σ) (ls : List (ListenerId × Listener)) : Prop :=
  ∀ before, ∀ l ∈ ls, (run (l.2.forbids h st) c (st.asked h c w before)).1 =
    (run (l.2.forbids h st) c w).1

theorem Steady.forbidden_iff (hsteady : st.Steady h c w ls) :
    st.Forbidden h c w ls ↔ ∃ l ∈ ls, (run (l.2.forbids h st) c w).1 = .ok true := by
  constructor
  · rintro ⟨before, l, after, rfl, hl⟩
    have hmem : l ∈ before ++ l :: after := List.mem_append_right _ List.mem_cons_self
    exact ⟨l, hmem, hsteady before l hmem ▸ hl⟩
  · rintro ⟨l, hmem, hl⟩
    obtain ⟨before, after, rfl⟩ := List.append_of_mem hmem
    exact ⟨before, l, after, rfl, (hsteady before l hmem).trans hl⟩

theorem isReadOnly_opining (h g : Host σ) (st : StoreId) :
    st.isReadOnly (g.opining h.vetoes fun s => (h.engine s).allowsChanges) = st.isReadOnly h := rfl

theorem run_edit_forbidden (e : Edit) (hpoll : run (st.isReadOnly h) c w = (.ok true, w₁)) :
    run (st.edit h e) c w = (.ok (.error .readOnly), w₁) := by
  rw [edit, run_bind, hpoll]
  rfl

theorem run_edit_failing {e : Edit} {err : StoreError}
    (hpoll : run (st.isReadOnly h) c w = (.ok false, w₁))
    (happly : (w₁.store st).apply e = .error err) :
    run (st.edit h e) c w = (.ok (.error err), w₁) := by
  obtain ⟨r, w', hrun, rfl, rfl⟩ : Yields (st.edit h e) c w fun r w' =>
      r = .error err ∧ w' = w₁ := by
    refine Yields.step hpoll (Yields.store ?_)
    rw [happly]
    exact Yields.pure ⟨rfl, rfl⟩
  exact hrun

end StoreId

namespace Host.Courteous

variable {h : Host σ} (courteous : h.Courteous) {st : StoreId} {c : Scope} {w : World σ}
include courteous

theorem forbids (st : StoreId) (l : Listener) : Within World.sameStores (l.forbids h st) := by
  cases l with
  | external k => exact courteous.vetoes k st
  | session s => exact Within.entering (Within.isReadOnly (courteous.allowsChanges s))

theorem polled (ls : List (ListenerId × Listener)) :
    Yields (ls.anyM fun l => l.2.forbids h st) c w fun b w₁ =>
      w₁.stores = w.stores ∧ (b = true ↔ st.Forbidden h c w ls) := by
  induction ls generalizing w with
  | nil =>
      refine Yields.pure ⟨rfl, iff_of_false Bool.false_ne_true ?_⟩
      rintro ⟨before, l, after, heq, -⟩
      cases before <;> cases heq
  | cons l rest ih =>
      obtain ⟨b, w₁, hrun, hstores⟩ := courteous.forbids st l.2 c w
      refine Yields.step hrun ?_
      rw [StoreId.forbidden_cons, hrun]
      cases b with
      | true => exact Yields.pure ⟨hstores, iff_of_true rfl (.inl rfl)⟩
      | false =>
          refine ih.mono fun b w₂ hw₂ => ⟨hw₂.1.trans hstores, ?_⟩
          simpa using hw₂.2

theorem isReadOnly (st : StoreId) (c : Scope) (w : World σ) :
    Yields (st.isReadOnly h) c w fun b w₁ => w₁.stores = w.stores ∧
      (b = true ↔ st.Forbidden h c w (w.store st).listeners) :=
  Yields.store (courteous.polled (w.store st).listeners)

end Host.Courteous

namespace StoreId

/-- How an edit may end. Whoever is not asked for his opinion has no part in a failure. -/
structure Decided (h : Host σ) (st : StoreId) (c : Scope) (w : World σ) (e : Edit)
    (r : Except StoreError (List Announcement)) (w' : World σ) : Prop where
  readOnly : r = .error .readOnly ↔ st.Forbidden h c w (w.store st).listeners
  unknown : ∀ id, r = .error (.unknownBreakEvent id) ↔
    ¬st.Forbidden h c w (w.store st).listeners ∧ e.target = some id ∧ (w.store st).get? id = none
  made : (∃ as, r = .ok as) ↔ ¬st.Forbidden h c w (w.store st).listeners ∧
    ∀ id, e.target = some id → ((w.store st).get? id).isSome
  unchanged : ∀ err, r = .error err → w'.stores = w.stores
  untold : ∀ err, r = .error err → (∃ b, run (st.isReadOnly h) c w = (.ok b, w')) ∧
    ∀ g : Host σ, run (st.edit (g.opining h.vetoes fun s => (h.engine s).allowsChanges) e) c w =
      (.ok r, w')

variable {h : Host σ} {st : StoreId} {c : Scope} {w w₁ : World σ} {e : Edit}

theorem decided_forbidden (hforbidden : st.Forbidden h c w (w.store st).listeners)
    (hpoll : run (st.isReadOnly h) c w = (.ok true, w₁)) (hstores : w₁.stores = w.stores) :
    st.Decided h c w e (.error .readOnly) w₁ where
  readOnly := iff_of_true rfl hforbidden
  unknown := fun _ => iff_of_false nofun fun hallowed => hallowed.1 hforbidden
  made := iff_of_false nofun fun hallowed => hallowed.1 hforbidden
  unchanged := fun _ _ => hstores
  untold := fun _ _ => ⟨⟨true, hpoll⟩, fun g =>
    run_edit_forbidden e (by rwa [isReadOnly_opining])⟩

theorem decided_unknown {id : BreakEventId}
    (hallowed : ¬st.Forbidden h c w (w.store st).listeners) (htarget : e.target = some id)
    (hunknown : (w.store st).get? id = none)
    (hpoll : run (st.isReadOnly h) c w = (.ok false, w₁)) (hstores : w₁.stores = w.stores) :
    st.Decided h c w e (.error (.unknownBreakEvent id)) w₁ where
  readOnly := iff_of_false nofun hallowed
  unknown := fun id' => by
    constructor
    · rintro ⟨⟩
      exact ⟨hallowed, htarget, hunknown⟩
    · rintro ⟨-, htarget', -⟩
      rw [Option.some.inj (htarget.symm.trans htarget')]
  made := iff_of_false nofun fun hfound => by
    have hsome := hfound.2 id htarget
    rw [hunknown] at hsome
    cases hsome
  unchanged := fun _ _ => hstores
  untold := fun _ _ => by
    have happly : (w₁.store st).apply e = .error (.unknownBreakEvent id) := by
      rw [World.store, hstores]
      exact BreakpointStore.apply_error_iff.mpr ⟨id, htarget, hunknown, rfl⟩
    exact ⟨⟨false, hpoll⟩, fun g => run_edit_failing (by rwa [isReadOnly_opining]) happly⟩

theorem decided_made (hallowed : ¬st.Forbidden h c w (w.store st).listeners)
    (hfound : ∀ id, e.target = some id → (w.store st).get? id ≠ none) (as : List Announcement) :
    st.Decided h c w e (.ok as) w₁ where
  readOnly := iff_of_false nofun hallowed
  unknown := fun id => iff_of_false nofun fun hunknown => hfound id hunknown.2.1 hunknown.2.2
  made := iff_of_true ⟨as, rfl⟩
    ⟨hallowed, fun id htarget => Option.isSome_iff_ne_none.mpr (hfound id htarget)⟩
  unchanged := nofun
  untold := nofun

end StoreId

namespace Host.Courteous

variable {h : Host σ} (courteous : h.Courteous) (st : StoreId) (c : Scope) (w : World σ)
include courteous

theorem decides (e : Edit) : ∃ r w', run (st.edit h e) c w = (.ok r, w') ∧
    st.Decided h c w e r w' := by
  obtain ⟨b, w₁, hpoll, hstores, hb⟩ := courteous.isReadOnly st c w
  have hstore : w₁.store st = w.store st := by rw [World.store, World.store, hstores]
  cases b with
  | true => exact ⟨_, w₁, StoreId.run_edit_forbidden e hpoll,
      StoreId.decided_forbidden (hb.mp rfl) hpoll hstores⟩
  | false =>
      have hallowed : ¬st.Forbidden h c w (w.store st).listeners :=
        fun hforbidden => Bool.false_ne_true (hb.mpr hforbidden)
      cases happly : (w₁.store st).apply e with
      | error err =>
          obtain ⟨id, htarget, hunknown, rfl⟩ := BreakpointStore.apply_error_iff.mp happly
          rw [hstore] at hunknown
          exact ⟨_, w₁, StoreId.run_edit_failing hpoll happly,
            StoreId.decided_unknown hallowed htarget hunknown hpoll hstores⟩
      | ok y =>
          refine Yields.step hpoll (Yields.store ?_)
          rw [happly]
          refine Yields.setStore ?_
          refine (courteous.keeps.announceAll (courteous.storeChanged · st) y.2 c _).bind
            fun _ _ _ => Yields.pure (StoreId.decided_made hallowed (fun id htarget hunknown => ?_) _)
          rw [hstore, BreakpointStore.apply_error_iff.mpr ⟨id, htarget, hunknown, rfl⟩] at happly
          cases happly

theorem adjusts (id : BreakEventId) (line : Nat) :
    ∃ r w', run (st.adjust h id line) c w = (.ok r, w') ∧
      (r = .ok () ↔ ((w.store st).get? id).isSome) := by
  have hfound {y} (hadjust : (w.store st).adjust id line = .ok y) :
      ((w.store st).get? id).isSome := by
    refine Option.isSome_iff_ne_none.mpr fun hnone => ?_
    rw [BreakpointStore.adjust_error_iff.mpr ⟨hnone, rfl⟩] at hadjust
    cases hadjust
  refine (Yields.moved st id line c w).bind fun r w₁ hr => ?_
  rcases r with err | (_ | a)
  · refine Yields.pure (iff_of_false nofun ?_)
    rw [(BreakpointStore.adjust_error_iff.mp hr.1).1]
    exact Bool.false_ne_true
  · exact Yields.pure (iff_of_true rfl (hfound hr.1))
  · obtain ⟨y, hy, rfl⟩ := hr
    exact (courteous.keeps.announceAll (courteous.storeChanged · st) a.announcements c _).bind
      fun _ _ _ => Yields.pure (iff_of_true rfl (hfound hy))

theorem resets : ∃ w', run (st.resetAdjusted h) c w = (.ok (), w') := by
  obtain ⟨_, w', hrun, -⟩ : Yields (st.resetAdjusted h) c w fun _ _ => True := by
    refine Yields.store (Yields.setStore ?_)
    refine Yields.forM (fun _ _ => True) trivial fun a rest w₁ _ => Yields.store ?_
    exact Yields.setStore (courteous.keeps.announceAll (courteous.storeChanged · st) _ c _)
  exact ⟨w', hrun⟩

end Host.Courteous

theorem StoreId.run_adjust_unknown (h : Host σ) {st : StoreId} {c : Scope} {w : World σ}
    {id : BreakEventId} (hunknown : (w.store st).get? id = none) (line : Nat) :
    run (st.adjust h id line) c w = (.ok (.error (.unknownBreakEvent id)), w) := by
  have hadjust : (w.store st).adjust id line = .error (.unknownBreakEvent id) :=
    BreakpointStore.adjust_error_iff.mpr ⟨hunknown, rfl⟩
  obtain ⟨_, w', hrun, rfl, rfl⟩ : Yields (st.adjust h id line) c w fun r w' =>
      r = .error (.unknownBreakEvent id) ∧ w' = w := by
    refine (Yields.moved st id line c w).bind fun r w₁ hr => ?_
    rcases r with err | (_ | a)
    · obtain ⟨herr, rfl⟩ := hr
      obtain rfl := (BreakpointStore.adjust_error_iff.mp herr).2
      exact Yields.pure ⟨rfl, rfl⟩
    · exact absurd (hadjust.symm.trans hr.1) nofun
    · obtain ⟨y, hy, -⟩ := hr
      exact absurd (hadjust.symm.trans hy) nofun
  exact hrun

theorem StoreId.adjust_opining (h : Host σ) (st : StoreId) (id : BreakEventId) (line : Nat)
    (vetoes : CallbackId → StoreId → Act σ Bool) (allows : SessionId → Act σ Bool) :
    st.adjust (h.opining vetoes allows) id line = st.adjust h id line := rfl

theorem StoreId.resetAdjusted_opining (h : Host σ) (st : StoreId)
    (vetoes : CallbackId → StoreId → Act σ Bool) (allows : SessionId → Act σ Bool) :
    st.resetAdjusted (h.opining vetoes allows) = st.resetAdjusted h := rfl

/-- Users are refused just for a veto or for an event that is not stored, and then nothing has
happened but that listeners were asked. Engines are never refused for a veto. -/
theorem Host.Courteous.refuses_without_trace {h : Host σ} (courteous : h.Courteous) (st : StoreId)
    (c : Scope) (w : World σ) :
    (∀ e, ∃ r w', run (st.edit h e) c w = (.ok r, w') ∧ st.Decided h c w e r w') ∧
      (st.Steady h c w (w.store st).listeners → (st.Forbidden h c w (w.store st).listeners ↔
        ∃ l ∈ (w.store st).listeners, (run (l.2.forbids h st) c w).1 = .ok true)) ∧
      (∀ id line, ∃ r w', run (st.adjust h id line) c w = (.ok r, w') ∧
        (r = .ok () ↔ ((w.store st).get? id).isSome)) ∧
      (∀ (g : Host σ) id line, (w.store st).get? id = none →
        run (st.adjust g id line) c w = (.ok (.error (.unknownBreakEvent id)), w)) ∧
      (∃ w', run (st.resetAdjusted h) c w = (.ok (), w')) ∧
      ∀ vetoes allows, st.resetAdjusted (h.opining vetoes allows) = st.resetAdjusted h ∧
        ∀ id line, st.adjust (h.opining vetoes allows) id line = st.adjust h id line :=
  ⟨courteous.decides st c w, StoreId.Steady.forbidden_iff, courteous.adjusts st c w,
    fun g _ line hunknown => StoreId.run_adjust_unknown g hunknown line, courteous.resets st c w,
    fun vetoes allows => ⟨StoreId.resetAdjusted_opining h st vetoes allows,
      fun id line => StoreId.adjust_opining h st id line vetoes allows⟩⟩

namespace Mirroring

def forbidding : Host State :=
  host.opining (fun k _ => return k == ⟨1⟩) fun _ => return true

theorem courteous : forbidding.Courteous where
  vetoes := fun k _ => Within.pure (k == ⟨1⟩)
  allowsChanges := fun _ => Within.pure true
  storeChanged := fun _ _ a => Within.ite (fun _ w =>
    ⟨(), { w with host := (w.host.1, w.host.2 ++ [a]) }, rfl, trivial⟩) (Within.pure ())
  keeps := ⟨fun _ q => Within.pure (Scripted.willing [] q), fun _ => Within.pure true,
    fun _ _ _ => Within.pure (), fun _ _ => Within.pure false⟩

theorem refused_beside_session : forbidding.Courteous ∧
    ∃ w', run (StoreId.edit forbidding ⟨0⟩ (.add (Scripted.breakpoint 1 10))) caller shared =
      (.ok (.error .readOnly), w') ∧ w'.stores = shared.stores := by
  refine ⟨courteous, ?_⟩
  obtain ⟨r, w', hrun, hdecided⟩ :=
    (courteous.refuses_without_trace ⟨0⟩ caller shared).1 (.add (Scripted.breakpoint 1 10))
  have hforbidden : StoreId.Forbidden forbidding ⟨0⟩ caller shared
      (shared.store ⟨0⟩).listeners := ⟨[(⟨0⟩, .session ⟨0⟩)], _, [], rfl, rfl⟩
  obtain rfl := hdecided.readOnly.mpr hforbidden
  exact ⟨w', hrun, hdecided.unchanged _ rfl⟩

end Mirroring

end DebugSession
