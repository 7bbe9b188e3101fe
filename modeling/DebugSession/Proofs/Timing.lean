import DebugSession.Proofs.Acceptance
import DebugSession.Proofs.Backing
import DebugSession.Proofs.Scripted

namespace DebugSession

def EngineRequest.setsBinding : EngineRequest → Bool
  | insert _ | update _ _ | enable _ _ => true
  | _ => false

theorem EngineRequest.isBinding_of_setsBinding {q : EngineRequest} (hq : q.setsBinding = true) :
    q.isBinding = true := by
  cases q with
  | insert e | update handle e | enable handle on => rfl
  | _ => cases hq

def Lifecycle.takesBindings (l : Lifecycle) : Bool := l.started && !l.disposed

theorem Lifecycle.takesBindings_eq_false {l : Lifecycle} (hstarted : l.started = true) :
    l.takesBindings = false ↔ l.disposed = true := by
  simp [takesBindings, hstarted]

structure Note where
  exchange : Exchange
  /-- The life of the session when the request was made. -/
  life : Lifecycle

def Note.Timely (n : Note) : Prop :=
  n.exchange.request.setsBinding = true → n.life.takesBindings = true

instance (n : Note) : Decidable n.Timely := inferInstanceAs (Decidable (_ → _))

structure Diary (σ : Type) where
  session : SessionId
  notes : σ → List Note

namespace Diary

variable {σ : Type} (D : Diary σ)

abbrev ledger : Ledger σ := ⟨D.session, fun x => (D.notes x).map (·.exchange)⟩

def added (w w' : World σ) : List Note := (D.notes w'.host).drop (D.notes w.host).length

/-- Of all that was asked between two moments, nothing was asked out of time. -/
def Timely (w w' : World σ) : Prop := ∀ n ∈ D.added w w', n.Timely

def Grown (w w' : World σ) : Prop := D.notes w.host <+: D.notes w'.host

/-- All that is noted on the way is of one state of life, in which the session stays. -/
structure Still (w w' : World σ) : Prop where
  life : (w'.session D.session).lifecycle = (w.session D.session).lifecycle
  notes : ∃ ns, D.notes w'.host = D.notes w.host ++ ns ∧
    ∀ n ∈ ns, n.life = (w.session D.session).lifecycle

variable {D}

theorem added_of_append {w w' : World σ} {ns : List Note}
    (hns : D.notes w'.host = D.notes w.host ++ ns) : D.added w w' = ns := by
  rw [added, hns, List.drop_left]

namespace Still

variable {w w' w'' : World σ}

theorem of_host (hhost : w'.host = w.host)
    (hlife : (w'.session D.session).lifecycle = (w.session D.session).lifecycle) : D.Still w w' :=
  ⟨hlife, [], by rw [hhost, List.append_nil], by simp⟩

theorem trans (hw : D.Still w w') (hw' : D.Still w' w'') : D.Still w w'' := by
  obtain ⟨hlife, ns, hns, hall⟩ := hw
  obtain ⟨hlife', ns', hns', hall'⟩ := hw'
  refine ⟨hlife'.trans hlife, ns ++ ns', by rw [hns', hns, List.append_assoc], fun n hn => ?_⟩
  rcases List.mem_append.mp hn with hn | hn
  · exact hall n hn
  · rw [hall' n hn, hlife]

theorem withSession {s : SessionId} {m : Session → Session}
    (hm : ∀ x, (m x).lifecycle = x.lifecycle) : D.Still w (w.withSession s m) :=
  of_host rfl (World.map_session_withSession hm D.session)

theorem added_life (hw : D.Still w w') {n : Note} (hn : n ∈ D.added w w') :
    n.life = (w.session D.session).lifecycle := by
  obtain ⟨ns, hns, hall⟩ := hw.notes
  rw [added_of_append hns] at hn
  exact hall n hn

end Still

variable (D)

theorem Still.course : World.Course D.Still where
  same := fun hhost hsessions => of_host hhost (by simp only [World.session, hsessions])
  trans := trans
  aside := fun _ _ _ hm => withSession hm.lifecycle

theorem Grown.course : World.Course D.Grown where
  same := fun hhost _ => ⟨[], by rw [hhost, List.append_nil]⟩
  trans := List.IsPrefix.trans
  aside := fun _ _ _ _ => List.prefix_refl _

structure KeptBy (h : Host σ) : Prop where
  quiet : D.ledger.Quiet h
  still : h.Abides (Still.course D).law
  grown : h.Abides (Grown.course D).law

end Diary

namespace Standing

variable {s : SessionId} {t : Thread} {st : StoreId} {v v' v'' : Standing}

def Sets (v v' : Standing) : Prop := ∃ x ∈ v'.since v.exchanges, x.request.setsBinding = true

theorem sets_trans (hv : v.exchanges <+: v'.exchanges) (hv' : v'.exchanges <+: v''.exchanges) :
    Sets v v'' ↔ Sets v v' ∨ Sets v' v'' := by
  simp only [Sets, since_trans hv hv', List.mem_append, or_and_right, exists_or]

theorem not_sets_of_same (hexchanges : v'.exchanges = v.exchanges) : ¬ Sets v v' := by
  rintro ⟨x, hx, -⟩
  rw [← hexchanges, since_self] at hx
  cases hx

theorem Spared.not_sets (hspared : Spared v v') : ¬ Sets v v' := by
  rintro ⟨x, hx, hsets⟩
  obtain ⟨added, hadded, hbinding⟩ := hspared.exchanges
  rw [since_append hadded] at hx
  cases (EngineRequest.isBinding_of_setsBinding hsets).symm.trans (hbinding x hx)

theorem BoundAll.sets_iff {es : List BreakEvent} (hbound : BoundAll es v v') :
    Sets v v' ↔ es ≠ [] := by
  have hrequests := hbound.requests
  constructor
  · rintro ⟨x, hx, -⟩ rfl
    rw [List.map_nil, List.map_eq_nil_iff] at hrequests
    rw [hrequests] at hx
    cases hx
  · intro hes
    obtain ⟨e, rest, rfl⟩ := List.exists_cons_of_ne_nil hes
    obtain ⟨x, hx, hrequest⟩ : ∃ x ∈ v'.since v.exchanges, x.request = .insert e := by
      apply List.mem_map.mp
      rw [hrequests]
      exact List.mem_cons_self
    exact ⟨x, hx, by rw [hrequest]; rfl⟩

theorem not_sets_unbound (id : BreakEventId) (m : Mood) (v : Standing) : ¬ Sets v (v.unbound id m) := by
  simp only [unbound]
  cases v.bindings.get? id with
  | none => exact not_sets_of_same rfl
  | some r =>
      obtain ⟨e, handle, status, message⟩ := r
      cases handle with
      | none => exact not_sets_of_same rfl
      | some handle =>
          have hsince : (v.complied (.remove handle) m (v.bindings.remove id)).since v.exchanges =
              [⟨.remove handle, m (.remove handle)⟩] := by
            apply since_append
            simp only [complied]
            split <;> rfl
          rintro ⟨x, hx, hsets⟩
          change x ∈ since _ _ at hx
          rw [hsince] at hx
          rw [List.mem_singleton.mp hx] at hsets
          cases hsets

theorem UnboundAll.not_sets {es : List BreakEvent} (hunbound : UnboundAll es v v') : ¬ Sets v v' := by
  simp only [UnboundAll] at hunbound
  induction hunbound with
  | nil v => exact not_sets_of_same rfl
  | @cons e rest v v' v'' hx hrest ih =>
      obtain ⟨m, rfl⟩ := hx
      rw [sets_trans (Dealt.unbound e.id m v).grown (UnboundAll.dealt hrest).grown]
      exact not_or.mpr ⟨not_sets_unbound e.id m v, ih⟩

theorem LetGo.not_sets (hv : Hooked s v) (hletgo : LetGo s t v v') : ¬ Sets v v' := by
  obtain ⟨u, hunbound, -, hexchanges⟩ := hletgo.unbound hv
  have hsets := hunbound.not_sets
  simp only [Sets, since] at hsets ⊢
  rwa [hexchanges]

theorem Swapped.sets_iff {new : Option StoreId} (hv : Hooked s v) (hswapped : Swapped s t new v v') :
    Sets v v' ↔ v.started = true ∧ v'.attachedEvents ≠ [] := by
  obtain ⟨v₁, hletgo, hattach⟩ := hswapped
  have htended := Tended.letGo hletgo
  have hnot := hletgo.not_sets hv
  cases new with
  | none =>
      subst hattach
      refine iff_of_false hnot ?_
      rintro ⟨-, hsome⟩
      exact hsome rfl
  | some st =>
      obtain ⟨v₂, hbound, rfl⟩ := hattach
      have hdealt := hbound.dealt
      have hstore₂ : v₂.session.store = some st := by
        rw [hdealt.session]
        rfl
      have hstarted₁ : (v₁.pointedAt (some st)).started = v.started := htended.started
      have hsplit : Sets v (v₂.subscribed s st) ↔ Sets v v₁ ∨ Sets (v₁.pointedAt (some st)) v₂ :=
        sets_trans htended.grown hdealt.grown
      rw [hsplit, or_iff_right hnot, attachedEvents_subscribed hstore₂, hdealt.store]
      simp only [BoundIfStarted, hstarted₁] at hbound
      split at hbound
      · rename_i hstarted
        rw [hbound.sets_iff, and_iff_right hstarted]
      · rename_i hstarted
        subst hbound
        exact iff_of_false (not_sets_of_same rfl) fun h => hstarted h.1

theorem attachedEvents_ne_nil : v.attachedEvents ≠ [] ↔ ∃ id, (v.view id).isSome := by
  simp only [isSome_view, List.ne_nil_iff_exists_cons]
  constructor
  · rintro ⟨e, rest, hes⟩
    exact ⟨e.id, e, hes ▸ List.mem_cons_self, rfl⟩
  · rintro ⟨-, e, he, -⟩
    exact List.exists_cons_of_ne_nil (List.ne_nil_of_mem he)

theorem Started.sets_iff (hstarted : Started s t v v') : Sets v v' ↔ v.attachedEvents ≠ [] := by
  obtain ⟨v₁, st, v₂, hspared, hprovided, hbound⟩ := hstarted
  have hnot : ¬ Sets v v₂ := by
    have hsame := hspared.not_sets
    simp only [Sets, since] at hsame ⊢
    rwa [hprovided.idle.2]
  have hview₁ : v₁.view = v.view := view_of_spared hspared
  have hview₂ : v₂.view = v.view := hprovided.view.trans hview₁
  rw [sets_trans (hspared.grown.trans (Tended.provided hprovided).grown) (BoundAll.dealt hbound).grown,
    or_iff_right hnot, hbound.sets_iff, ← hprovided.attachedEvents, attachedEvents_ne_nil, hview₂,
    attachedEvents_ne_nil]

theorem Dispatched.not_sets (hv : Sound s v) (hdispatched : Dispatched s t v v') : ¬ Sets v v' := by
  rcases hdispatched with hspared | ⟨v₁, v₂, hspared, hswapped, hspared'⟩
  · exact hspared.not_sets
  · have hgrown := (Tended.swapped hswapped).grown
    have hdetached : v₂.attachedEvents = [] := by
      simp only [attachedEvents, hswapped.store]
    have hnot : ¬ Sets v₁ v₂ := by
      rw [hswapped.sets_iff (hv.of_spared hspared).toHooked]
      exact fun h => h.2 hdetached
    rw [sets_trans hspared.grown (hgrown.trans hspared'.grown), sets_trans hgrown hspared'.grown]
    exact not_or.mpr ⟨hspared.not_sets, not_or.mpr ⟨hnot, hspared'.not_sets⟩⟩

def SetsBy (v v' : Standing) : Operation → Prop
  | .started _ => v.attachedEvents ≠ []
  | .fileLoaded file => v.session.config.autoRetry = true ∧ v.waiting file ≠ []
  | .attach _ => v.started = true ∧ v'.attachedEvents ≠ []
  | o => o.edits.isSome ∧ v.started = true ∧ Sets v v'

theorem Revisions.sets_iff {inPlace : Bool} (hrevisions : Revisions s t st inPlace v v') :
    Sets v v' ↔ v.started = true ∧ Sets v v' := by
  refine ⟨fun hsets => ⟨?_, hsets⟩, And.right⟩
  rw [← Bool.not_eq_false]
  exact fun hstarted => not_sets_of_same (hrevisions.unstarted hstarted).2 hsets

theorem Effect.sets_iff {o : Operation} (hv : Sound s v) (heffect : Effect s t v o v') :
    Sets v v' ↔ SetsBy v v' o := by
  have hnone {P : Prop} (hnot : ¬ Sets v v') : Sets v v' ↔ false = true ∧ P :=
    iff_of_false hnot (nomatch ·.1)
  have hsame {P : Prop} (hexchanges : v'.exchanges = v.exchanges) : Sets v v' ↔ false = true ∧ P :=
    hnone (not_sets_of_same hexchanges)
  have hedits {st : StoreId} {inPlace : Bool} (hrevisions : Revisions s t st inPlace v v') :
      Sets v v' ↔ true = true ∧ v.started = true ∧ Sets v v' :=
    hrevisions.sets_iff.trans (and_iff_right rfl).symm
  cases o with
  | command k => exact hnone (Dispatched.not_sets hv heffect)
  | started thread => exact Started.sets_iff heffect
  | fileLoaded file =>
      simp only [Effect] at heffect
      split at heffect
      · rename_i hretry
        simp only [SetsBy, BoundAll.sets_iff heffect, hretry, true_and, ne_eq, List.map_eq_nil_iff]
      · rename_i hretry
        exact iff_of_false (not_sets_of_same (congrArg exchanges heffect)) fun h => hretry h.1
  | fileUnloaded file =>
      simp only [Effect] at heffect
      split at heffect
      · exact hsame heffect.exchanges
      · exact hsame (congrArg exchanges heffect)
  | setStatus handle status message =>
      obtain rfl : v' = _ := heffect
      exact hsame rfl
  | adjust id line =>
      simp only [Effect] at heffect
      split at heffect
      · exact hsame (congrArg exchanges heffect)
      · rename_i hstore
        rcases heffect.moved hstore with rfl | ⟨e, x, -, rfl, -⟩
        · exact hsame rfl
        · refine hsame ?_
          simp only [moved]
          cases v.bindings.get? e.id <;> rfl
  | attach new => exact Swapped.sets_iff hv.toHooked heffect
  | breakpoints =>
      obtain ⟨st, hprovided⟩ := heffect
      exact hsame hprovided.idle.2
  | edit st e => exact hedits (Effect.revisions rfl heffect)
  | adjustLine st id line => exact hedits (Effect.revisions rfl heffect)
  | resetAdjusted st => exact hedits heffect
  | _ => exact hnone (Spared.not_sets heffect)

end Standing

def Operation.lifeAsked (l : Lifecycle) : Operation → Lifecycle
  | .started _ => l.after .initialized
  | _ => l

namespace Diary

variable {σ : Type} {D : Diary σ} {h : Host σ} {w w' : World σ} {v v' : Standing}

theorem exchanges_added (hw : D.ledger.Shows w v) (hw' : D.ledger.Shows w' v') :
    (D.added w w').map (·.exchange) = v'.since v.exchanges := by
  rw [added, List.map_drop, Standing.since, ← hw.exchanges, ← hw'.exchanges]
  simp only [List.length_map]

theorem sets_iff (hw : D.ledger.Shows w v) (hw' : D.ledger.Shows w' v') :
    Standing.Sets v v' ↔ ∃ n ∈ D.added w w', n.exchange.request.setsBinding = true := by
  rw [Standing.Sets, ← exchanges_added hw hw']
  constructor
  · rintro ⟨x, hx, hsets⟩
    obtain ⟨n, hn, rfl⟩ := List.mem_map.mp hx
    exact ⟨n, hn, hsets⟩
  · rintro ⟨n, hn, hsets⟩
    exact ⟨n.exchange, List.mem_map_of_mem hn, hsets⟩

namespace KeptBy

variable (kept : D.KeptBy h)

include kept

/-- An event that says nothing of the life of the target leaves that of the session alone. -/
theorem still_targetEvent {e : TargetEvent} (he : ∀ l : Lifecycle, l.reported e.kind = l) :
    Act.Obeys (Still.course D).law (D.session.targetEvent h e) := by
  have hnoting : Act.Obeys (Still.course D).law
      (Act.modifySession D.session (SessionId.noting · (SessionId.attachEvent D.session e)) :
        Act σ Unit) :=
    fun _ _ => Still.withSession fun x => he x.lifecycle
  refine hnoting.bind fun _ => ?_
  exact (kept.still.emitTo D.session _).bind fun _ => kept.still.emitTo D.session _

/-- First the subscribers hear of a start. Then the session is started, and only then binds. -/
theorem life_engineStarted (thread : Option ThreadInfo) (c : Scope) (hw : D.ledger.Shows w v)
    (hheld : v.session.held = true) :
    ∀ n ∈ D.added w (Act.run (D.session.engineStarted h thread) c w).2,
      n.exchange.request.setsBinding = true →
        n.life = (w.session D.session).lifecycle.after .initialized := by
  have htold := kept.still_targetEvent (e := { kind := .ready, thread := thread }) (fun _ => rfl) c w
  obtain ⟨_, w₁, v₁, hrun, hw₁, hspared⟩ :=
    kept.quiet.targetEvent { kind := .ready, thread := thread } (c := c) v hheld w hw
  change Act.run (D.session.targetEvent h _) c w = _ at hrun
  rw [hrun] at htold
  obtain ⟨hlife, told, htold, -⟩ := htold
  let w₂ := w₁.withSession D.session fun x => { x with lifecycle := x.lifecycle.after .initialized }
  have hlife₂ : (w₂.session D.session).lifecycle =
      (w₁.session D.session).lifecycle.after .initialized := by
    obtain ⟨hsize, -⟩ := Array.getElem?_eq_some_iff.mp hw₁.session
    exact congrArg Session.lifecycle (World.session_withSession_self hsize)
  have hbinds : Act.Obeys (Still.course D).law (SessionId.bindAll h D.session) :=
    (kept.still.breakpoints D.session).bind fun st => kept.still.bindEvents D.session st
  obtain ⟨-, asked, hasked, hall⟩ := hbinds (c.locking D.session) w₂
  have hrun' : Act.run (D.session.engineStarted h thread) c w =
      Act.run (SessionId.bindAll h D.session) (c.locking D.session) w₂ := by
    rw [SessionId.engineStarted, Act.run_bind, hrun]
    rfl
  have happend : D.notes (Act.run (SessionId.bindAll h D.session) (c.locking D.session) w₂).2.host =
      D.notes w.host ++ (told ++ asked) := by
    rw [hasked, ← List.append_assoc, ← htold]
    rfl
  intro n hn hsets
  -- What was told to the subscribers set no binding, and what was asked came after the transition.
  rw [hrun', added_of_append happend] at hn
  rcases List.mem_append.mp hn with hn | hn
  · refine absurd ((sets_iff hw hw₁).mpr ⟨n, ?_, hsets⟩) hspared.not_sets
    rwa [added_of_append htold]
  · rw [hall n hn, hlife₂, hlife]

/-- What is bound or changed in an operation is so in one state of the session's life. -/
theorem life_perform (t : Thread) (o : Operation) (hw : D.ledger.Shows w v)
    (hv : Standing.Sound D.session v) :
    ∀ n ∈ D.added w ((Turn.perform t o).after h D.session w),
      n.exchange.request.setsBinding = true →
        n.life = o.lifeAsked (w.session D.session).lifecycle := by
  intro n hn hsets
  obtain ⟨v', hw', hturn⟩ := kept.quiet.turn hw hv (.perform t o)
  have hsome : Standing.Sets v v' := (sets_iff hw hw').mpr ⟨n, hn, hsets⟩
  have heffect : Standing.Effect D.session t v o v' := hturn
  have huneventful (ho : o.isEventful = false) : n.life = (w.session D.session).lifecycle := by
    have hstill : Act.Obeys (Still.course D).law (o.perform h D.session) :=
      kept.still.perform_uneventful D.session ho
    exact (hstill ⟨t, [], []⟩ w).added_life hn
  cases o with
  | command k => exact absurd hsome (Standing.Dispatched.not_sets hv heffect)
  | targetEvent e => exact absurd hsome (Standing.Spared.not_sets heffect)
  | started thread =>
      have hlive : w.isLive D.session ⟨t, [], []⟩ = true := by
        simp only [World.isLive, hw.world_session, Bool.or_eq_true]
        exact .inl (.inl hv.held)
      have hrun : Act.run ((Operation.started thread).perform h D.session) ⟨t, [], []⟩ w =
          Act.run (D.session.engineStarted h thread) ⟨t, [], [D.session]⟩ w :=
        SessionId.run_entering_of_live D.session _ hlive
      change n ∈ D.added w (Act.run _ _ w).2 at hn
      rw [hrun] at hn
      exact kept.life_engineStarted thread _ hw hv.held n hn hsets
  | _ => exact huneventful rfl

end KeptBy

end Diary

/-- A turn in which something is bound or changed when the session is not started, or disposed.
Edits, attachments and starts do not look whether it is disposed; a file that is loaded does not
look at all. -/
def Turn.Untimely {σ : Type} (h : Host σ) (D : Diary σ) (w : World σ) (turn : Turn) : Prop :=
  let x := w.session D.session
  match turn with
  | .work | .choose _ _ => False
  | .perform _ (.started _) => x.lifecycle.disposed = true ∧ w.attachedEvents D.session ≠ []
  | .perform _ (.fileLoaded file) =>
    x.lifecycle.takesBindings = false ∧ x.config.autoRetry = true ∧ w.waiting D.session file ≠ []
  | .perform _ (.attach _) =>
    x.lifecycle.disposed = true ∧ x.lifecycle.started = true ∧
      (turn.after h D.session w).attachedEvents D.session ≠ []
  | .perform _ o =>
    x.lifecycle.disposed = true ∧ o.edits.isSome ∧ x.lifecycle.started = true ∧
      ∃ q ∈ turn.asked h D.ledger w, q.request.setsBinding = true

namespace Diary

variable {σ : Type} {D : Diary σ} {h : Host σ} {w w' : World σ} {v v' : Standing}

theorem exists_untimely_iff {ns : List Note} {l : Lifecycle}
    (hlife : ∀ n ∈ ns, n.exchange.request.setsBinding = true → n.life = l) :
    (∃ n ∈ ns, ¬ n.Timely) ↔
      l.takesBindings = false ∧ ∃ n ∈ ns, n.exchange.request.setsBinding = true := by
  simp only [Note.Timely, Classical.not_imp, Bool.not_eq_true]
  constructor
  · rintro ⟨n, hn, hsets, htakes⟩
    exact ⟨hlife n hn hsets ▸ htakes, n, hn, hsets⟩
  · rintro ⟨htakes, n, hn, hsets⟩
    exact ⟨n, hn, hsets, (hlife n hn hsets).symm ▸ htakes⟩

theorem KeptBy.untimely_perform_iff (kept : D.KeptBy h) (t : Thread) (o : Operation)
    (hw : D.ledger.Shows w v) (hv : Standing.Sound D.session v) :
    (∃ n ∈ D.added w ((Turn.perform t o).after h D.session w), ¬ n.Timely) ↔
      (Turn.perform t o).Untimely h D w := by
  obtain ⟨v', hw', hturn⟩ := kept.quiet.turn hw hv (.perform t o)
  have heffect : Standing.Effect D.session t v o v' := hturn
  rw [exists_untimely_iff (kept.life_perform t o hw hv), ← sets_iff hw hw', heffect.sets_iff hv]
  simp only [Turn.Untimely, hw.world_session, hw.attachedEvents, hw'.attachedEvents, hw.waiting,
    hw.asked hw']
  have hedits : (v.session.lifecycle.takesBindings = false ∧
      o.edits.isSome ∧ v.started = true ∧ Standing.Sets v v') ↔
      v.session.lifecycle.disposed = true ∧ o.edits.isSome ∧ v.started = true ∧ Standing.Sets v v' :=
    and_congr_left fun hsets => Lifecycle.takesBindings_eq_false hsets.2.1
  cases o with
  | started thread => exact and_congr_left' (Lifecycle.takesBindings_eq_false rfl)
  | fileLoaded file => exact Iff.rfl
  | attach new => exact and_congr_left fun hsets => Lifecycle.takesBindings_eq_false hsets.1
  | _ => exact hedits

theorem KeptBy.untimely_iff (kept : D.KeptBy h) (turn : Turn) (hw : D.ledger.Shows w v)
    (hv : Standing.Sound D.session v) :
    (∃ n ∈ D.added w (turn.after h D.session w), ¬ n.Timely) ↔ turn.Untimely h D w := by
  cases turn with
  | perform t o => exact kept.untimely_perform_iff t o hw hv
  | work =>
      obtain ⟨v', hw', hturn⟩ := kept.quiet.turn hw hv .work
      refine iff_of_false ?_ id
      rintro ⟨n, hn, huntimely⟩
      refine Standing.Dispatched.not_sets hv hturn ((sets_iff hw hw').mpr ⟨n, hn, ?_⟩)
      exact Classical.not_not.mp fun hsets => huntimely fun h => absurd h hsets
  | choose m hm =>
      refine iff_of_false ?_ id
      rintro ⟨n, hn, -⟩
      change n ∈ (D.notes w.host).drop (D.notes w.host).length at hn
      rw [List.drop_length] at hn
      cases hn

theorem Grown.eventful : (Grown.course D).law.Eventful :=
  ⟨fun _ _ _ _ => List.prefix_refl _, fun _ _ _ _ => List.prefix_refl _⟩

theorem KeptBy.turn_grown (kept : D.KeptBy h) (turn : Turn) (w : World σ) :
    D.Grown w (turn.after h D.session w) := by
  cases turn with
  | choose m hm => exact List.prefix_refl _
  | perform t o =>
      by_cases hcommand : ∃ k, o = .command k
      · obtain ⟨k, rfl⟩ := hcommand
        exact (Grown.course D).command kept.grown Grown.eventful (fun _ => List.prefix_refl _) _ w
      · have ho : ∀ k, o ≠ .command k := fun k hk => hcommand ⟨k, hk⟩
        exact kept.grown.perform Grown.eventful D.session ho ⟨t, [], []⟩ w
  | work =>
      simp only [Turn.after]
      cases htake : (w.session D.session).queue.take? with
      | none =>
          simp only [SessionId.workNext]
          rw [SessionId.run_session_bind, htake]
          exact List.prefix_refl _
      | some taken =>
          obtain ⟨k, q⟩ := taken
          rw [SessionId.run_workNext_of_take h D.session htake rfl]
          exact kept.grown.execute Grown.eventful D.session k ⟨.worker D.session, [], []⟩
            (w.withSession D.session ({ · with queue := q }))

theorem added_trans {w'' : World σ} (hw : D.Grown w w') (hw' : D.Grown w' w'') :
    D.added w w'' = D.added w w' ++ D.added w' w'' := by
  obtain ⟨ns, hns⟩ := hw
  obtain ⟨ns', hns'⟩ := hw'
  rw [added_of_append hns.symm, added_of_append hns'.symm]
  apply added_of_append
  rw [← hns', ← hns, List.append_assoc]

theorem timely_trans {w'' : World σ} (hw : D.Grown w w') (hw' : D.Grown w' w'') :
    D.Timely w w'' ↔ D.Timely w w' ∧ D.Timely w' w'' := by
  simp only [Timely, added_trans hw hw', List.mem_append, or_imp, forall_and]

theorem KeptBy.run_grown (kept : D.KeptBy h) (turns : List Turn) (w : World σ) :
    D.Grown w (Turn.afterAll h D.session w turns) := by
  induction turns generalizing w with
  | nil => exact List.prefix_refl _
  | cons turn rest ih => exact (kept.turn_grown turn w).trans (ih _)

/-- Break events are bound and bindings changed only while the session is started and not disposed,
just if in no turn something is to be bound or changed that does not look for that. -/
theorem timely_iff_nothing_untimely (kept : D.KeptBy h) {config : SessionConfig}
    (hopened : w.Opened D.session config) (turns : List Turn) :
    D.Timely w (Turn.afterAll h D.session w turns) ↔
      Nowhere (Turn.after h D.session) (Turn.Untimely h D) w turns := by
  obtain ⟨v, output, hv, -⟩ := D.ledger.knows_of_opened hopened
  clear hopened
  -- That the session has just been opened is true before the first turn only; what is known of it stays.
  induction turns generalizing w v with
  | nil =>
      refine iff_of_true (fun n hn => ?_) trivial
      change n ∈ (D.notes w.host).drop _ at hn
      rw [List.drop_length] at hn
      cases hn
  | cons turn rest ih =>
      obtain ⟨v', hv', -⟩ := hv.turn kept.quiet turn
      have hturn := kept.untimely_iff turn hv.seen hv.sound
      change D.Timely w (Turn.afterAll h D.session (turn.after h D.session w) rest) ↔
        ¬ turn.Untimely h D w ∧ Nowhere _ _ (turn.after h D.session w) rest
      rw [timely_trans (kept.turn_grown turn w) (kept.run_grown rest _), ← ih v' hv', ← hturn]
      simp only [Timely, not_exists, not_and, Classical.not_not]

end Diary

namespace Scripted

open Act Ledger

def diary : Diary (Simulation.Memory × List Note) := ⟨self, (·.2)⟩

def attend (script : List Exchange → Mood) :
    (x : Contact) → (String → Act (Simulation.Memory × List Note) (Option String)) →
      Act (Simulation.Memory × List Note) x.Answer
  | .answer s q, _ => do
    let past := (← Act.host).2.map (·.exchange)
    let life := (← Act.session self).lifecycle
    modifyHost fun x => (x.1, x.2 ++ if s = self then [⟨⟨q, script past q⟩, life⟩] else [])
    return script past q
  | .allowsChanges _, _ => return true
  | .vetoes _ _, _ | .handleFault _ _, _ | .customHit _ _ _, _ => return false
  | .resolveExpression _ _ _, _ => return .ok none
  | .resolveType _ _ _, _ | .provideEvaluator _ _, _ => return none
  | .observe _ _ _, _ | .storeChanged _ _ _, _ | .write _ _ _, _ | .trace _ _ _, _ => return

def attentive (script : List Exchange → Mood) : Host (Simulation.Memory × List Note) :=
  (Simulation.host default).calling (attend script)

variable (script : List Exchange → Mood)

theorem attend_obeys {L : Act.Law (Simulation.Memory × List Note)}
    (hanswer : ∀ s q types, Obeys L (attend script (.answer s q) types)) :
    (attentive script).Abides L := by
  refine (Simulation.host default).calling_abides fun x types _ => ?_
  cases x with
  | answer s q => exact hanswer s q types
  | _ => exact Obeys.pure _

theorem kept : diary.KeptBy (attentive script) where
  quiet := {
    answer := fun t q c w => by
      have hrun : run ((attentive script).engine t |>.answer q).run c w =
          (.ok (script (w.host.2.map (·.exchange)) q),
            { w with host := (w.host.1, w.host.2 ++
              if t = self then
                [⟨⟨q, script (w.host.2.map (·.exchange)) q⟩, (w.session self).lifecycle⟩]
              else []) }) := rfl
      refine ⟨_, _, hrun, rfl, rfl, rfl, ?_⟩
      change List.map _ (w.host.2 ++ if t = self then _ else _) =
        w.host.2.map _ ++ if t = self then _ else _
      rw [List.map_append]
      split <;> rfl
    allowsChanges := fun _ => diary.ledger.silent_pure true
    resolveExpression := fun _ _ _ _ _ => diary.ledger.silent_pure (Except.ok none)
    observe := fun _ _ _ => diary.ledger.silent_pure ()
    storeChanged := fun _ _ _ => diary.ledger.silent_pure ()
    vetoes := fun _ _ => diary.ledger.silent_pure false
    write := fun _ _ _ => diary.ledger.silent_pure ()
    handleFault := fun _ _ => diary.ledger.silent_pure false
    trace := fun _ _ _ => diary.ledger.silent_pure ()
    customHit := fun _ _ _ => diary.ledger.silent_pure false
    resolveType := fun _ _ _ => diary.ledger.silent_pure none
    provideEvaluator := fun _ _ => diary.ledger.silent_pure none }
  still := attend_obeys script fun s q _ _ w => by
    refine ⟨rfl, _, rfl, fun n hn => ?_⟩
    split at hn
    · rw [List.mem_singleton.mp hn]
      rfl
    · cases hn
  grown := attend_obeys script fun _ _ _ _ _ => List.prefix_append _ _

def noted (config : SessionConfig) : World (Simulation.Memory × List Note) :=
  { host := (default, [])
    sessions := #[Session.new config ⟨0⟩]
    routers := #[{}] }

theorem noted_self (config : SessionConfig) : (noted config).Opened self config :=
  ⟨⟨⟨0⟩, rfl⟩, fun _ _ hl => (by cases hl), fun _ => List.nodup_nil⟩

def refusedAtFirst : List Turn := calls
  [.breakpoints, .edit ⟨0⟩ (.add (breakpoint 1 10)), .started none]

def loaded : Operation := .fileLoaded "/src/foo.cs"

end Scripted

namespace Diary

theorem timely_when_loaded_first :
    Scripted.diary.Timely (Scripted.noted { autoRetry := true }) (Turn.afterAll
      (Scripted.attentive Scripted.reluctant) Scripted.self (Scripted.noted { autoRetry := true })
      (Scripted.refusedAtFirst ++
        Scripted.calls [Scripted.loaded, .command .dispose, Scripted.loaded])) := by
  apply (timely_iff_nothing_untimely (Scripted.kept Scripted.reluctant)
    (Scripted.noted_self _) _).mpr
  refine ⟨fun h => absurd h.1 (by decide +kernel), fun h => absurd h.1 (by decide +kernel),
    fun h => absurd h.1 (by decide +kernel), fun h => absurd h.1 (by decide +kernel),
    fun h => absurd h.1 (by decide +kernel), fun h => h.2.2 (by decide +kernel), trivial⟩

/-- The run has ended when the file is loaded, and the breakpoint is bound all the same. -/
theorem untimely_when_loaded_late :
    ∃ n ∈ Scripted.diary.added (Scripted.noted { autoRetry := true }) (Turn.afterAll
        (Scripted.attentive Scripted.reluctant) Scripted.self (Scripted.noted { autoRetry := true })
        (Scripted.refusedAtFirst ++
          Scripted.calls [.targetEvent { kind := .exited }, Scripted.loaded])),
      n.exchange.request = .insert (Scripted.breakpoint 1 10) ∧ n.life.started = false := by
  decide +kernel

end Diary

end DebugSession
