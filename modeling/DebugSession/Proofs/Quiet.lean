import DebugSession.Proofs.Operation
import DebugSession.Proofs.Run

namespace DebugSession

structure Exchange where
  request : EngineRequest
  answer : Except EngineError request.Answer

/-- Where a host writes down the dealings of one session with its engine. -/
structure Ledger (σ : Type) where
  session : SessionId
  entries : σ → List Exchange

/-- All that the bindings of a session depend on. -/
structure Standing where
  session : Session
  stores : Array (BreakpointStore Listener)
  directory : String
  exchanges : List Exchange

namespace Standing

def store (v : Standing) (st : StoreId) : BreakpointStore Listener := v.stores.getD st.index {}

def putStore (v : Standing) (st : StoreId) (x : BreakpointStore Listener) : Standing :=
  { v with stores := v.stores.setIfInBounds st.index x }

end Standing

namespace Ledger

variable {σ α β : Type} (L : Ledger σ)

def Keeps (added : α → List Exchange) (a : Act σ α) : Prop :=
  ∀ c w, ∃ x w', Act.run a c w = (.ok x, w') ∧ w'.sessions = w.sessions ∧ w'.stores = w.stores ∧
    w'.directory = w.directory ∧ L.entries w'.host = L.entries w.host ++ added x

abbrev Silent (a : Act σ α) : Prop := L.Keeps (fun _ => []) a

theorem silent_pure (x : α) : L.Silent (Pure.pure x) :=
  fun _ w => ⟨x, w, rfl, rfl, rfl, rfl, (List.append_nil _).symm⟩

/-- No call out of the library comes back into it, and the ledger is kept. -/
structure Quiet (h : Host σ) : Prop where
  answer : ∀ t q,
    L.Keeps (fun x => if t = L.session then [⟨q, x⟩] else []) ((h.engine t).answer q).run
  allowsChanges : ∀ t, L.Silent (h.engine t).allowsChanges
  resolveExpression : ∀ t expression location ask, (∀ name, L.Silent (ask name)) →
    L.Silent ((h.engine t).resolveExpression expression location ask).run
  observe : ∀ t k e, L.Silent (h.observe t k e)
  storeChanged : ∀ k st a, L.Silent (h.storeChanged k st a)
  vetoes : ∀ k st, L.Silent (h.vetoes k st)
  write : ∀ k isError text, L.Silent (h.write k isError text)
  handleFault : ∀ k e, L.Silent (h.handleFault k e)
  trace : ∀ k e text, L.Silent (h.trace k e text)
  customHit : ∀ k action e, L.Silent (h.customHit k action e)
  resolveType : ∀ k name l, L.Silent (h.resolveType k name l)
  provideEvaluator : ∀ k extension, L.Silent (h.provideEvaluator k extension)

structure Shows (w : World σ) (v : Standing) : Prop where
  session : w.sessions[L.session.index]? = some v.session
  stores : w.stores = v.stores
  directory : w.directory = v.directory
  exchanges : L.entries w.host = v.exchanges

/-- A program that comes to an end, from a standing to one of those that `Q` allows. -/
def Leads (a : Act σ α) (c : Scope) (v : Standing) (Q : α → Standing → Prop) : Prop :=
  ∀ w, L.Shows w v → ∃ x w' v', Act.run a c w = (.ok x, w') ∧ L.Shows w' v' ∧ Q x v'

def Inert (a : Act σ α) (c : Scope) : Prop := ∀ v, L.Leads a c v fun _ v' => v' = v

variable {L} {c : Scope} {v : Standing} {a : Act σ α} {f : α → Act σ β}
variable {P Q : α → Standing → Prop} {R : β → Standing → Prop}

namespace Leads

theorem mono (ha : L.Leads a c v P) (hPQ : ∀ x v', P x v' → Q x v') : L.Leads a c v Q := by
  intro w hw
  obtain ⟨x, w', v', hrun, hw', hx⟩ := ha w hw
  exact ⟨x, w', v', hrun, hw', hPQ x v' hx⟩

theorem pure {x : α} (hx : Q x v) : L.Leads (Pure.pure x) c v Q :=
  fun w hw => ⟨x, w, v, rfl, hw, hx⟩

theorem bind (ha : L.Leads a c v P) (hf : ∀ x v', P x v' → L.Leads (f x) c v' R) :
    L.Leads (a >>= f) c v R := by
  intro w hw
  obtain ⟨x, w', v', hrun, hw', hx⟩ := ha w hw
  obtain ⟨y, w'', v'', hrun', hw'', hy⟩ := hf x v' hx w' hw'
  refine ⟨y, w'', v'', ?_, hw'', hy⟩
  rw [Act.run_bind, hrun]
  exact hrun'

theorem map {g : α → β} (ha : L.Leads a c v fun x v' => R (g x) v') : L.Leads (g <$> a) c v R := by
  rw [map_eq_pure_bind]
  exact ha.bind fun x v' hx => pure hx

theorem discard {Q : Unit → Standing → Prop} (ha : L.Leads a c v fun _ v' => Q () v') :
    L.Leads (discard a) c v Q := by
  change L.Leads ((fun _ => ()) <$> a) c v Q
  exact ha.map

theorem outcome (ha : L.Leads a c v P) :
    L.Leads (Act.outcome a) c v fun r v' => ∃ x, r = .ok x ∧ P x v' := by
  intro w hw
  obtain ⟨x, w', v', hrun, hw', hx⟩ := ha w hw
  refine ⟨.ok x, w', v', ?_, hw', x, rfl, hx⟩
  rw [Act.run_outcome, hrun]

theorem followedBy {last : Act σ Unit} (ha : L.Leads a c v P)
    (hlast : ∀ x v', P x v' → L.Leads last c v' fun _ v'' => Q x v'') :
    L.Leads (Act.followedBy a last) c v Q := by
  apply ha.outcome.bind
  rintro r v' ⟨x, rfl, hx⟩
  exact (hlast x v' hx).bind fun _ v'' hy => pure hy

theorem session :
    L.Leads (Act.session L.session) c v fun x v' => x = v.session ∧ v' = v := by
  intro w hw
  refine ⟨v.session, w, v, ?_, hw, rfl, rfl⟩
  change (Except.ok (w.sessions.getD L.session.index default), w) = _
  rw [Array.getD_eq_getD_getElem?, hw.session]
  rfl

theorem modifySession (g : Session → Session) :
    L.Leads (Act.modifySession L.session g) c v fun _ v' =>
      v' = { v with session := g v.session } := by
  intro w hw
  refine ⟨(), _, { v with session := g v.session }, rfl,
    ⟨?_, hw.stores, hw.directory, hw.exchanges⟩, rfl⟩
  simp [Array.getElem?_modify, hw.session]

theorem store (st : StoreId) :
    L.Leads (Act.store st) c v fun x v' => x = v.store st ∧ v' = v := by
  intro w hw
  refine ⟨v.store st, w, v, ?_, hw, rfl, rfl⟩
  change (Except.ok (w.stores.getD st.index {}), w) = _
  rw [hw.stores]
  rfl

theorem setStore (st : StoreId) (x : BreakpointStore Listener) :
    L.Leads (Act.setStore st x) c v fun _ v' => v' = v.putStore st x := by
  intro w hw
  refine ⟨(), _, v.putStore st x, rfl, ⟨hw.session, ?_, hw.directory, hw.exchanges⟩, rfl⟩
  simp only [hw.stores, Standing.putStore]

theorem newStore :
    L.Leads Act.newStore c v fun st v' =>
      st = ⟨v.stores.size⟩ ∧ v' = { v with stores := v.stores.push {} } := by
  intro w hw
  have hsize : w.stores.size = v.stores.size := congrArg Array.size hw.stores
  refine ⟨⟨w.stores.size⟩, _, { v with stores := v.stores.push {} }, rfl,
    ⟨hw.session, ?_, hw.directory, hw.exchanges⟩, by rw [hsize], rfl⟩
  simp only [hw.stores]

theorem get : L.Leads MonadState.get c v fun w v' => L.Shows w v ∧ v' = v :=
  fun w hw => ⟨w, w, v, rfl, hw, hw, rfl⟩

theorem thread : L.Leads Act.thread c v fun t v' => t = c.thread ∧ v' = v :=
  fun w hw => ⟨c.thread, w, v, rfl, hw, rfl, rfl⟩

theorem withReader {g : Scope → Scope} (ha : L.Leads a (g c) v Q) :
    L.Leads (withReader g a) c v Q := ha

theorem locked {s : SessionId} (ha : ∀ c', c'.thread = c.thread → L.Leads a c' v Q) :
    L.Leads (Act.locked s a) c v Q := ha _ rfl

theorem keeping {s : SessionId} (ha : ∀ c', c'.thread = c.thread → L.Leads a c' v Q) :
    L.Leads (Act.keeping s a) c v Q := ha _ rfl

theorem entering {otherwise : α} (hheld : v.session.held = true)
    (ha : ∀ c', c'.thread = c.thread → L.Leads a c' v Q) :
    L.Leads (Act.entering L.session otherwise a) c v Q := by
  refine bind (P := fun x v' => x = true ∧ v' = v) ?_ ?_
  · apply session.bind
    rintro x v' ⟨rfl, rfl⟩
    refine bind (P := fun _ v'' => v'' = v') (fun w hw => ⟨c, w, v', rfl, hw, rfl⟩) ?_
    rintro _ v' rfl
    exact pure ⟨by simp [hheld], rfl⟩
  · rintro x v' ⟨rfl, rfl⟩
    exact keeping ha

theorem forM {xs : List α} {f : α → Act σ Unit} (I : List α → Standing → Prop) (hI : I xs v)
    (hf : ∀ x rest v', I (x :: rest) v' → L.Leads (f x) c v' fun _ v'' => I rest v'') :
    L.Leads (xs.forM f) c v fun _ v' => I [] v' := by
  induction xs generalizing v with
  | nil => exact pure hI
  | cons x rest ih => exact (hf x rest v hI).bind fun _ v' hv' => ih hv'

end Leads

theorem Keeps.leads {added : α → List Exchange} (ha : L.Keeps added a) (c : Scope) (v : Standing) :
    L.Leads a c v fun x v' => v' = { v with exchanges := v.exchanges ++ added x } := by
  intro w hw
  obtain ⟨x, w', hrun, hsessions, hstores, hdirectory, hentries⟩ := ha c w
  refine ⟨x, w', _, hrun, ⟨?_, ?_, ?_, ?_⟩, rfl⟩
  · rw [hsessions, hw.session]
  · rw [hstores, hw.stores]
  · rw [hdirectory, hw.directory]
  · rw [hentries, hw.exchanges]

theorem Keeps.inert (ha : L.Silent a) (c : Scope) : L.Inert a c := by
  intro v
  apply (ha.leads c v).mono
  rintro x v' rfl
  simp

namespace Inert

theorem pure (x : α) (c : Scope) : L.Inert (Pure.pure x) c := fun _ => Leads.pure rfl

theorem bind (ha : L.Inert a c) (hf : ∀ x, L.Inert (f x) c) : L.Inert (a >>= f) c := by
  intro v
  apply (ha v).bind
  rintro x v' rfl
  exact hf x v'

theorem discard (ha : L.Inert a c) : L.Inert (discard a) c := fun v => (ha v).discard

theorem ite {p : Prop} [Decidable p] {a b : Act σ α} (ha : L.Inert a c) (hb : L.Inert b c) :
    L.Inert (if p then a else b) c := by
  split
  · exact ha
  · exact hb

theorem locked {s : SessionId} (ha : ∀ c', L.Inert a c') : L.Inert (Act.locked s a) c := ha _

theorem keeping {s : SessionId} (ha : ∀ c', L.Inert a c') : L.Inert (Act.keeping s a) c := ha _

theorem get : L.Inert (σ := σ) get c := fun v w hw => ⟨w, w, v, rfl, hw, rfl⟩

theorem read : L.Inert (σ := σ) read c := fun v w hw => ⟨c, w, v, rfl, hw, rfl⟩

theorem session (s : SessionId) : L.Inert (Act.session s) c :=
  get.bind fun _ => pure _ c

theorem store (st : StoreId) : L.Inert (Act.store st) c := get.bind fun _ => pure _ c

theorem router (r : RouterId) : L.Inert (Act.router r) c := get.bind fun _ => pure _ c

theorem modifySession {s : SessionId} (hs : s ≠ L.session) (g : Session → Session) :
    L.Inert (Act.modifySession s g) c := by
  intro v w hw
  refine ⟨(), _, v, rfl, ⟨?_, hw.stores, hw.directory, hw.exchanges⟩, rfl⟩
  have hindex : s.index ≠ L.session.index := fun h => hs (by cases s; cases h; rfl)
  simp [Array.getElem?_modify, hindex, hw.session]

theorem entering {s : SessionId} {otherwise : α} (ha : ∀ c', L.Inert a c') :
    L.Inert (Act.entering s otherwise a) c := by
  refine bind ?_ fun live => ?_
  · exact (session s).bind fun _ => read.bind fun _ => pure _ c
  · exact ite (keeping ha) (pure _ c)

theorem forM {xs : List α} {f : α → Act σ Unit} (hf : ∀ x ∈ xs, L.Inert (f x) c) :
    L.Inert (xs.forM f) c := by
  induction xs with
  | nil => exact pure _ c
  | cons x rest ih =>
      exact (hf x List.mem_cons_self).bind fun _ => ih fun y hy => hf y (List.mem_cons_of_mem x hy)

theorem anyM {xs : List α} {p : α → Act σ Bool} (hp : ∀ x ∈ xs, L.Inert (p x) c) :
    L.Inert (xs.anyM p) c := by
  induction xs with
  | nil => exact pure _ c
  | cons x rest ih =>
      refine (hp x List.mem_cons_self).bind fun found => ?_
      cases found with
      | true => exact pure _ c
      | false => exact ih fun y hy => hp y (List.mem_cons_of_mem x hy)

end Inert

end Ledger

end DebugSession
