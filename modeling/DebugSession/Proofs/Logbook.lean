import DebugSession.Proofs.Law
import DebugSession.Proofs.Lease

namespace DebugSession

inductive Remark
  | asked (x : Exchange)
  | told (k : CallbackId) (st : StoreId) (a : Announcement)

def Remark.exchange? : Remark → Option Exchange
  | asked x => some x
  | told _ _ _ => none

theorem Remark.filterMap_asked (xs : List Exchange) :
    (xs.map Remark.asked).filterMap Remark.exchange? = xs := by
  induction xs with
  | nil => rfl
  | cons x rest ih => exact congrArg (x :: ·) ih

def Listener.outside? : Listener → Option CallbackId
  | .session _ => none
  | .external k => some k

def BreakpointStore.outside (x : BreakpointStore Listener) : List CallbackId :=
  x.listeners.filterMap (·.2.outside?)

def BreakpointStore.news (x : BreakpointStore Listener) (st : StoreId) (a : Announcement) :
    List Remark := x.outside.map (.told · st a)

structure Logbook (σ : Type) where
  session : SessionId
  remarks : σ → List Remark

def Host.muted {σ : Type} (h : Host σ) : Host σ := { h with storeChanged := fun _ _ _ => pure () }

theorem Ledger.Shows.unique {σ : Type} {L : Ledger σ} {w : World σ} {v v' : Standing}
    (hv : L.Shows w v) (hv' : L.Shows w v') : v = v' := by
  obtain ⟨x, stores, directory, exchanges⟩ := v
  obtain rfl : x = v'.session := Option.some.inj (hv.session.symm.trans hv'.session)
  obtain rfl : stores = v'.stores := hv.stores.symm.trans hv'.stores
  obtain rfl : directory = v'.directory := hv.directory.symm.trans hv'.directory
  obtain rfl : exchanges = v'.exchanges := hv.exchanges.symm.trans hv'.exchanges
  rfl

namespace Logbook

open Act

variable {σ α β : Type} (B : Logbook σ) {h : Host σ}

abbrev ledger : Ledger σ := ⟨B.session, fun x => (B.remarks x).filterMap Remark.exchange?⟩

def Grown (w w' : World σ) : Prop :=
  ∃ xs : List Exchange, B.remarks w'.host = B.remarks w.host ++ xs.map .asked

theorem Grown.course : World.Course B.Grown where
  same := fun hhost _ => ⟨[], by rw [hhost, List.map_nil, List.append_nil]⟩
  trans := by
    rintro w w' w'' ⟨xs, hxs⟩ ⟨ys, hys⟩
    exact ⟨xs ++ ys, by rw [hys, hxs, List.map_append, List.append_assoc]⟩
  aside := fun _ _ _ _ => ⟨[], (List.append_nil _).symm⟩

/-- The log is kept by a host that does not call back. -/
structure KeptBy (h : Host σ) : Prop where
  quiet : B.ledger.Quiet h
  grown : h.muted.Abides (Grown.course B).law
  told : ∀ k st a c w, B.remarks (run (h.storeChanged k st a) c w).2.host =
    B.remarks w.host ++ [.told k st a]

/-- A program that comes to an end, with what `Q` allows of its answer, the standing that it leads
to and the remarks that it adds. -/
def Notes (a : Act σ α) (c : Scope) (v : Standing) (Q : α → Standing → List Remark → Prop) : Prop :=
  ∀ w, B.ledger.Shows w v → ∃ x w' v' rs, run a c w = (.ok x, w') ∧ B.ledger.Shows w' v' ∧
    B.remarks w'.host = B.remarks w.host ++ rs ∧ Q x v' rs

variable {B} {c : Scope} {v : Standing} {a : Act σ α} {f : α → Act σ β}
variable {P Q : α → Standing → List Remark → Prop} {R : β → Standing → List Remark → Prop}

namespace Notes

theorem mono (ha : B.Notes a c v P) (hPQ : ∀ x v' rs, P x v' rs → Q x v' rs) : B.Notes a c v Q := by
  intro w hw
  obtain ⟨x, w', v', rs, hrun, hw', hrs, hx⟩ := ha w hw
  exact ⟨x, w', v', rs, hrun, hw', hrs, hPQ x v' rs hx⟩

theorem pure {x : α} (hx : Q x v []) : B.Notes (Pure.pure x) c v Q :=
  fun w hw => ⟨x, w, v, [], rfl, hw, (List.append_nil _).symm, hx⟩

theorem bind (ha : B.Notes a c v P)
    (hf : ∀ x v' rs, P x v' rs → B.Notes (f x) c v' fun y v'' rs' => R y v'' (rs ++ rs')) :
    B.Notes (a >>= f) c v R := by
  intro w hw
  obtain ⟨x, w', v', rs, hrun, hw', hrs, hx⟩ := ha w hw
  obtain ⟨y, w'', v'', rs', hrun', hw'', hrs', hy⟩ := hf x v' rs hx w' hw'
  refine ⟨y, w'', v'', rs ++ rs', ?_, hw'', ?_, hy⟩
  · rw [run_bind, hrun]
    exact hrun'
  · rw [hrs', hrs, List.append_assoc]

/-- What is known of a program that tells no listener anything. -/
theorem of_leads {Q : α → Standing → Prop} (ha : B.ledger.Leads a c v Q)
    (hgrown : Obeys (Grown.course B).law a) : B.Notes a c v fun x v' rs =>
      Q x v' ∧ ∃ xs, v'.exchanges = v.exchanges ++ xs ∧ rs = xs.map .asked := by
  intro w hw
  obtain ⟨x, w', v', hrun, hw', hx⟩ := ha w hw
  have hremarks := hgrown c w
  rw [hrun] at hremarks
  obtain ⟨xs, hxs⟩ := hremarks
  refine ⟨x, w', v', xs.map .asked, hrun, hw', hxs, hx, xs, ?_, rfl⟩
  rw [← hw'.exchanges, ← hw.exchanges]
  change (B.remarks w'.host).filterMap Remark.exchange? = _
  rw [hxs, List.filterMap_append, Remark.filterMap_asked]

theorem of_inert (ha : B.ledger.Inert a c) (hgrown : Obeys (Grown.course B).law a) :
    B.Notes a c v fun _ v' rs => v' = v ∧ rs = [] := by
  refine (of_leads (ha v) hgrown).mono ?_
  rintro x v' rs ⟨rfl, xs, hxs, rfl⟩
  obtain rfl : xs = [] := by simpa using hxs.symm
  exact ⟨rfl, rfl⟩

/-- What is known of both. -/
theorem and {Q : α → Standing → Prop} (ha : B.Notes a c v P) (hQ : B.ledger.Leads a c v Q) :
    B.Notes a c v fun x v' rs => P x v' rs ∧ Q x v' := by
  intro w hw
  obtain ⟨x, w', v', rs, hrun, hw', hrs, hx⟩ := ha w hw
  obtain ⟨y, w'', v'', hrun', hw'', hy⟩ := hQ w hw
  rw [hrun] at hrun'
  cases hrun'
  obtain rfl := hw'.unique hw''
  exact ⟨x, w', v', rs, hrun, hw', hrs, hx, hy⟩

/-- Reading and changing add no remark. -/
theorem still {Q : α → Standing → Prop} (ha : B.ledger.Leads a c v Q)
    (hhost : ∀ w, (run a c w).2.host = w.host) :
    B.Notes a c v fun x v' rs => Q x v' ∧ rs = [] := by
  intro w hw
  obtain ⟨x, w', v', hrun, hw', hx⟩ := ha w hw
  have hsame := hhost w
  rw [hrun] at hsame
  exact ⟨x, w', v', [], hrun, hw', by rw [hsame, List.append_nil], hx, rfl⟩

theorem session {f : Session → Act σ β} (hf : B.Notes (f v.session) c v R) :
    B.Notes (Act.session B.session >>= f) c v R := by
  refine (still Ledger.Leads.session fun _ => rfl).bind ?_
  rintro x v' rs ⟨⟨rfl, rfl⟩, rfl⟩
  exact hf

theorem store {st : StoreId} {f : BreakpointStore Listener → Act σ β}
    (hf : B.Notes (f (v.store st)) c v R) : B.Notes (Act.store st >>= f) c v R := by
  refine (still (Ledger.Leads.store st) fun _ => rfl).bind ?_
  rintro x v' rs ⟨⟨rfl, rfl⟩, rfl⟩
  exact hf

theorem modifySession {g : Session → Session} {f : Unit → Act σ β}
    (hf : B.Notes (f ()) c { v with session := g v.session } R) :
    B.Notes (Act.modifySession B.session g >>= f) c v R := by
  refine (still (Ledger.Leads.modifySession g) fun _ => rfl).bind ?_
  rintro x v' rs ⟨rfl, rfl⟩
  exact hf

theorem setStore {st : StoreId} {x : BreakpointStore Listener} {f : Unit → Act σ β}
    (hf : B.Notes (f ()) c (v.putStore st x) R) : B.Notes (Act.setStore st x >>= f) c v R := by
  refine (still (Ledger.Leads.setStore st x) fun _ => rfl).bind ?_
  rintro y v' rs ⟨rfl, rfl⟩
  exact hf

theorem locked {s : SessionId} (ha : ∀ c', B.Notes a c' v Q) : B.Notes (Act.locked s a) c v Q :=
  ha _

theorem keeping {s : SessionId} (ha : ∀ c', B.Notes a c' v Q) : B.Notes (Act.keeping s a) c v Q :=
  ha _

end Notes

variable (kept : B.KeptBy h)
include kept

theorem KeptBy.storeChanged (k : CallbackId) (st : StoreId) (a : Announcement) :
    B.Notes (h.storeChanged k st a) c v fun _ v' rs => v' = v ∧ rs = [.told k st a] := by
  intro w hw
  obtain ⟨x, w', v', hrun, hw', hv'⟩ := (kept.quiet.storeChanged k st a).inert c v w hw
  have htold := kept.told k st a c w
  rw [hrun] at htold
  exact ⟨x, w', v', _, hrun, hw', htold, hv', rfl⟩

theorem KeptBy.follow (t : SessionId) {a : Announcement}
    (hdeaf : a.change = .statusChanged ∨ t ≠ B.session) :
    B.Notes (t.follow h a) c v fun _ v' rs => v' = v ∧ rs = [] := by
  refine Notes.of_inert ?_ (kept.grown.follow t a)
  rcases hdeaf with ha | ht
  · simp only [SessionId.follow, ha]
    exact Ledger.Inert.pure _ c
  · exact kept.quiet.follow_other ht a

/-- An announcement of which the session makes nothing, if it is told at all. -/
theorem KeptBy.round (st : StoreId) (a : Announcement) (ls : List (ListenerId × Listener))
    (hdeaf : (∃ l ∈ ls, l.2 = .session B.session) →
      B.Notes (B.session.follow h a) c v fun _ v' rs => v' = v ∧ rs = []) :
    B.Notes (ls.forM fun (_, listener) => match listener with
        | .session t => t.follow h a
        | .external k => h.storeChanged k st a) c v fun _ v' rs =>
      v' = v ∧ rs = (ls.filterMap (·.2.outside?)).map (.told · st a) := by
  induction ls with
  | nil => exact Notes.pure ⟨rfl, rfl⟩
  | cons l rest ih =>
      obtain ⟨i, listener⟩ := l
      have hrest := ih fun ⟨l, hl, hself⟩ => hdeaf ⟨l, List.mem_cons_of_mem _ hl, hself⟩
      cases listener with
      | session t =>
          have hfollow : B.Notes (t.follow h a) c v fun _ v' rs => v' = v ∧ rs = [] := by
            by_cases ht : t = B.session
            · subst ht
              exact hdeaf ⟨_, List.mem_cons_self, rfl⟩
            · exact kept.follow t (.inr ht)
          refine hfollow.bind ?_
          rintro x v' rs ⟨rfl, rfl⟩
          exact hrest
      | external k =>
          refine (kept.storeChanged k st a).bind ?_
          rintro x v' rs ⟨rfl, rfl⟩
          refine hrest.mono ?_
          rintro y v'' rs ⟨rfl, rfl⟩
          exact ⟨rfl, rfl⟩

theorem KeptBy.announce (st : StoreId) (a : Announcement)
    (hdeaf : a.change = .statusChanged ∨ Standing.hooks B.session (v.store st) = []) :
    B.Notes (st.announce h a) c v fun _ v' rs => v' = v ∧ rs = (v.store st).news st a := by
  refine Notes.store (kept.round st a _ ?_)
  rintro ⟨l, hl, hself⟩
  rcases hdeaf with ha | hhooks
  · exact kept.follow B.session (.inl ha)
  · rw [Standing.hooks, List.map_eq_nil_iff, List.filter_eq_nil_iff] at hhooks
    exact absurd hself (by simpa using hhooks l hl)

theorem KeptBy.announceStatus (st : StoreId) {e : BreakEvent}
    (he : (v.store st).get? e.id = some e) : B.Notes (st.announceStatus h e.id) c v fun _ v' rs =>
      v' = v ∧ rs = (v.store st).news st ⟨.statusChanged, e⟩ := by
  refine Notes.store ?_
  rw [he]
  exact kept.announce st _ (.inl rfl)

theorem KeptBy.announceAll (st : StoreId) (as : List Announcement)
    (hdeaf : Standing.hooks B.session (v.store st) = []) :
    B.Notes (st.announceAll h as) c v fun _ v' rs =>
      v' = v ∧ rs = as.flatMap ((v.store st).news st) := by
  induction as with
  | nil => exact Notes.pure ⟨rfl, rfl⟩
  | cons a rest ih =>
      refine (kept.announce st a (.inr hdeaf)).bind ?_
      rintro x v' rs ⟨rfl, rfl⟩
      refine ih.mono ?_
      rintro y v'' rs ⟨rfl, rfl⟩
      exact ⟨rfl, rfl⟩

end Logbook

end DebugSession
