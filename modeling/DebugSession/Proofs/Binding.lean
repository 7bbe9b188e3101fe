import DebugSession.Proofs.Quiet
import DebugSession.Proofs.Table

namespace DebugSession

/-- What an engine would answer at a moment, whatever it be asked. -/
abbrev Mood := (q : EngineRequest) → Except EngineError q.Answer

theorem exists_mood (q : EngineRequest) (x : Except EngineError q.Answer) :
    ∃ m : Mood, m q = x := by
  refine ⟨fun q' => if hq : q' = q then hq ▸ x else .error .notRunning, ?_⟩
  simp

def BindingRecord.ofAnswer (e : BreakEvent) : Except EngineError Binding → BindingRecord
  | .ok b => .ofBinding e b
  | .error err => .failed e err.message

@[simp] theorem BindingRecord.ofAnswer_breakEvent (e : BreakEvent)
    (x : Except EngineError Binding) : (ofAnswer e x).breakEvent = e := by
  cases x <;> rfl

namespace Standing

abbrev bindings (v : Standing) : BindingTable := v.session.bindings

abbrev started (v : Standing) : Bool := v.session.lifecycle.started

def rebind (v : Standing) (t : BindingTable) : Standing :=
  { v with session := { v.session with bindings := t } }

def asked (v : Standing) (q : EngineRequest) (x : Except EngineError q.Answer) : Standing :=
  { v with exchanges := v.exchanges ++ [⟨q, x⟩] }

def bound (e : BreakEvent) (m : Mood) (v : Standing) : Standing :=
  (v.asked (.insert e) (m (.insert e))).rebind (v.bindings.insert (.ofAnswer e (m (.insert e))))

/-- `t` is what becomes of the bindings if the engine complies. -/
def complied (v : Standing) (q : EngineRequest) (m : Mood) (t : BindingTable) : Standing :=
  match m q with
  | .ok _ => (v.asked q (m q)).rebind t
  | .error _ => v.asked q (m q)

def unbound (id : BreakEventId) (m : Mood) (v : Standing) : Standing :=
  match v.bindings.get? id with
  | none => v
  | some r =>
    match r.handle with
    | none => v.rebind (v.bindings.remove id)
    | some handle => v.complied (.remove handle) m (v.bindings.remove id)

def changed (id : BreakEventId) (change : BindingHandle → EngineRequest)
    (record : BreakEvent → BreakEvent) (m : Mood) (v : Standing) : Standing :=
  match v.bindings.get? id with
  | none => v
  | some r =>
    match r.handle with
    | none => v
    | some handle =>
      v.complied (change handle) m (v.bindings.insert { r with breakEvent := record r.breakEvent })

def followed (t : Thread) (a : Announcement) (m : Mood) (v : Standing) : Standing :=
  if v.started then
    match a.change with
    | .added => if v.bindings.isEditing t then v else v.bound a.event m
    | .removed => if v.bindings.isEditing t then v else v.unbound a.event.id m
    | .modified => v.changed a.event.id (.update · a.event) (fun _ => a.event) m
    | .enableChanged =>
      v.changed a.event.id (.enable · a.event.enabled) ({ · with enabled := a.event.enabled }) m
    | .statusChanged => v
  else v

/-- `v'` may differ from `v` in what the engine was asked and in what it bound. -/
structure Dealt (v v' : Standing) : Prop where
  stores : v'.stores = v.stores
  directory : v'.directory = v.directory
  session : v'.session = { v.session with bindings := v'.session.bindings }
  openEdits : v'.bindings.openEdits = v.bindings.openEdits
  distinct : v.bindings.Distinct → v'.bindings.Distinct
  grown : v.exchanges <+: v'.exchanges

namespace Dealt

variable {v v' v'' : Standing}

theorem refl (v : Standing) : Dealt v v := ⟨rfl, rfl, rfl, rfl, id, List.prefix_refl _⟩

theorem trans (hv : Dealt v v') (hv' : Dealt v' v'') : Dealt v v'' where
  stores := hv'.stores.trans hv.stores
  directory := hv'.directory.trans hv.directory
  session := by rw [hv'.session, hv.session]
  openEdits := hv'.openEdits.trans hv.openEdits
  distinct := fun hdistinct => hv'.distinct (hv.distinct hdistinct)
  grown := hv.grown.trans hv'.grown

theorem store (hv : Dealt v v') (st : StoreId) : v'.store st = v.store st := by
  simp only [Standing.store]
  rw [hv.stores]

theorem started (hv : Dealt v v') : v'.started = v.started := by
  simp only [Standing.started]
  rw [hv.session]

theorem held (hv : Dealt v v') : v'.session.held = v.session.held := by rw [hv.session]

theorem insert (v : Standing) (r : BindingRecord) : Dealt v (v.rebind (v.bindings.insert r)) :=
  ⟨rfl, rfl, rfl, BindingTable.insert_openEdits _ _, fun hdistinct => hdistinct.insert r,
    List.prefix_refl _⟩

theorem remove (v : Standing) (id : BreakEventId) : Dealt v (v.rebind (v.bindings.remove id)) :=
  ⟨rfl, rfl, rfl, BindingTable.remove_openEdits _ _, fun hdistinct => hdistinct.remove id,
    List.prefix_refl _⟩

theorem asked (v : Standing) (q : EngineRequest) (x : Except EngineError q.Answer) :
    Dealt v (v.asked q x) := ⟨rfl, rfl, rfl, rfl, id, List.prefix_append _ _⟩

theorem bound (e : BreakEvent) (m : Mood) (v : Standing) : Dealt v (v.bound e m) :=
  (asked v (.insert e) (m (.insert e))).trans (insert _ _)

theorem complied {t : BindingTable} (hv : Dealt v (v.rebind t)) (q : EngineRequest) (m : Mood) :
    Dealt v (v.complied q m t) := by
  simp only [Standing.complied]
  cases m q with
  | ok x => exact ⟨rfl, rfl, rfl, hv.openEdits, hv.distinct, List.prefix_append _ _⟩
  | error err => exact asked v q _

theorem unbound (id : BreakEventId) (m : Mood) (v : Standing) : Dealt v (v.unbound id m) := by
  simp only [Standing.unbound]
  cases v.bindings.get? id with
  | none => exact refl v
  | some r =>
      obtain ⟨e, handle, status, message⟩ := r
      cases handle with
      | none => exact remove v id
      | some handle => exact (remove v id).complied _ m

theorem changed (id : BreakEventId) (change : BindingHandle → EngineRequest)
    (record : BreakEvent → BreakEvent) (m : Mood) (v : Standing) :
    Dealt v (v.changed id change record m) := by
  simp only [Standing.changed]
  cases v.bindings.get? id with
  | none => exact refl v
  | some r =>
      obtain ⟨e, handle, status, message⟩ := r
      cases handle with
      | none => exact refl v
      | some handle => exact (insert v _).complied _ m

theorem followed (t : Thread) (a : Announcement) (m : Mood) (v : Standing) :
    Dealt v (v.followed t a m) := by
  simp only [Standing.followed]
  split
  · cases a.change with
    | added =>
        change Dealt v (if _ then _ else _)
        split
        · exact refl v
        · exact bound a.event m v
    | removed =>
        change Dealt v (if _ then _ else _)
        split
        · exact refl v
        · exact unbound a.event.id m v
    | modified => exact changed _ _ _ m v
    | enableChanged => exact changed _ _ _ m v
    | statusChanged => exact refl v
  · exact refl v

end Dealt

inductive Chain {α : Type} (f : α → Standing → Standing → Prop) :
    List α → Standing → Standing → Prop
  | nil (v : Standing) : Chain f [] v v
  | cons {x : α} {rest : List α} {v v' v'' : Standing} (hx : f x v v') (hrest : Chain f rest v' v'') :
      Chain f (x :: rest) v v''

theorem Chain.dealt {α : Type} {f : α → Standing → Standing → Prop} {xs : List α}
    {v v' : Standing} (hchain : Chain f xs v v') (hf : ∀ x v v', f x v v' → Dealt v v') :
    Dealt v v' := by
  induction hchain with
  | nil v => exact Dealt.refl v
  | cons hx _ ih => exact (hf _ _ _ hx).trans ih

theorem Chain.map {α β : Type} {f : β → Standing → Standing → Prop} (g : α → β) {xs : List α}
    {v v' : Standing} (hchain : Chain (fun x => f (g x)) xs v v') : Chain f (xs.map g) v v' := by
  induction hchain with
  | nil v => exact Chain.nil v
  | cons hx _ ih => exact Chain.cons hx ih

def BoundAll : List BreakEvent → Standing → Standing → Prop :=
  Chain fun e v v' => ∃ m, v' = v.bound e m

def UnboundAll : List BreakEvent → Standing → Standing → Prop :=
  Chain fun e v v' => ∃ m, v' = v.unbound e.id m

theorem BoundAll.dealt {es : List BreakEvent} {v v' : Standing} (hbound : BoundAll es v v') :
    Dealt v v' :=
  Chain.dealt hbound fun e w _ hm => by
    obtain ⟨m, rfl⟩ := hm
    exact Dealt.bound e m w

theorem UnboundAll.dealt {es : List BreakEvent} {v v' : Standing}
    (hunbound : UnboundAll es v v') : Dealt v v' :=
  Chain.dealt hunbound fun e w _ hm => by
    obtain ⟨m, rfl⟩ := hm
    exact Dealt.unbound e.id m w

end Standing

namespace Ledger.Quiet

open Act Standing

variable {σ : Type} {L : Ledger σ} {h : Host σ} (quiet : L.Quiet h) {c : Scope} {v : Standing}
include quiet

theorem asked (q : EngineRequest) :
    L.Leads ((h.engine L.session).answer q).run c v fun x v' =>
      ∃ m : Mood, x = m q ∧ v' = v.asked q (m q) := by
  apply ((quiet.answer L.session q).leads c v).mono
  rintro x v' rfl
  obtain ⟨m, rfl⟩ := exists_mood q x
  exact ⟨m, rfl, by simp [Standing.asked]⟩

theorem answer_other {s : SessionId} (hs : s ≠ L.session) (q : EngineRequest) :
    L.Inert ((h.engine s).answer q).run c := by
  refine Keeps.inert ?_ c
  have hkeeps := quiet.answer s q
  simpa only [hs, if_false] using hkeeps

theorem writeTo (r : RouterId) (sink : Sink) (isError : Bool) (text : String) :
    L.Inert (h.writeTo r sink isError text) c := by
  refine (Inert.router r).bind fun x => ?_
  simp only [OutputRouter.write]
  cases x.writer sink with
  | none => exact Inert.pure _ c
  | some w => exact (quiet.write w isError text).inert c

theorem log (s : SessionId) (isError : Bool) (text : String) :
    L.Inert (h.log s isError text) c :=
  (Inert.session s).bind fun x => quiet.writeTo x.output .log isError text

theorem offerFault (s : SessionId) (e : SessionError) : L.Inert (s.offerFault h e) c := by
  refine (Inert.session s).bind fun x => ?_
  cases x.handlers.fault with
  | none => exact Inert.pure _ c
  | some k => exact (quiet.handleFault k e).inert c

theorem reportEditFailure (s : SessionId) (e : BreakEvent) (err : EngineError) :
    L.Inert (s.reportEditFailure h e err) c := by
  refine ((Inert.session s).bind fun _ => Inert.pure _ c).bind fun started => ?_
  have hoffer := (quiet.offerFault (c := c) s (.breakEvent e.text err)).discard
  exact Inert.ite ((quiet.log s _ _).bind fun _ => hoffer) hoffer

end Ledger.Quiet

namespace Ledger

open Act Standing

variable {σ : Type} {L : Ledger σ} {c : Scope} {v : Standing}

theorem Leads.modifyBindings (f : BindingTable → BindingTable) :
    L.Leads (L.session.modifyBindings f) c v fun _ v' => v' = v.rebind (f v.bindings) :=
  Leads.modifySession _

theorem Leads.chain {α : Type} {xs : List α} {g : α → Act σ Unit}
    {f : α → Standing → Standing → Prop} (J : Standing → Prop) (hJ : J v)
    (hg : ∀ x v, J v → L.Leads (g x) c v fun _ v' => J v' ∧ f x v v') :
    L.Leads (xs.forM g) c v fun _ v' => Chain f xs v v' := by
  induction xs generalizing v with
  | nil => exact Leads.pure (Chain.nil v)
  | cons x rest ih =>
      apply (hg x v hJ).bind
      rintro _ v' ⟨hJ', hx⟩
      apply (ih hJ').mono
      intro _ v'' hrest
      exact Chain.cons hx hrest

theorem Leads.bindings : L.Leads L.session.bindings c v fun t v' => t = v.bindings ∧ v' = v := by
  apply Leads.session.bind
  rintro x v' ⟨rfl, rfl⟩
  exact Leads.pure ⟨rfl, rfl⟩

theorem Leads.isStarted : L.Leads L.session.isStarted c v fun b v' => b = v.started ∧ v' = v := by
  apply Leads.session.bind
  rintro x v' ⟨rfl, rfl⟩
  exact Leads.pure ⟨rfl, rfl⟩

theorem Leads.isAdjusting (hheld : v.session.held = true) :
    L.Leads L.session.isAdjusting c v fun b v' =>
      b = v.bindings.isEditing c.thread ∧ v' = v := by
  refine Leads.entering hheld fun c' hc' => ?_
  apply Leads.bindings.bind
  rintro t v' ⟨rfl, rfl⟩
  apply Leads.thread.bind
  rintro t v' ⟨rfl, rfl⟩
  exact Leads.pure ⟨by rw [hc'], rfl⟩

theorem Leads.whenStarted {a : Act σ Unit} {f : Mood → Standing → Standing}
    (hheld : v.session.held = true)
    (ha : ∀ c', L.Leads a c' v fun _ v' => ∃ m, v' = f m v) :
    L.Leads (L.session.whenStarted a) c v fun _ v' =>
      ∃ m, v' = if v.started then f m v else v := by
  refine Leads.entering hheld fun c' _ => Leads.locked fun c'' _ => ?_
  apply Leads.isStarted.bind
  rintro b v' ⟨rfl, rfl⟩
  cases v'.started with
  | true => exact ha c''
  | false => exact Leads.pure ⟨fun _ => .error .notRunning, rfl⟩

theorem Inert.isAdjusting (s : SessionId) : L.Inert s.isAdjusting c :=
  Inert.entering fun c' => ((Inert.session s).bind fun _ => Inert.pure _ c').bind fun _ =>
    (Inert.read.bind fun _ => Inert.pure _ c').bind fun _ => Inert.pure _ c'

theorem Inert.whenStarted {s : SessionId} {a : Act σ Unit} (ha : ∀ c', L.Inert a c') :
    L.Inert (s.whenStarted a) c :=
  Inert.entering fun _ => Inert.locked fun c' =>
    ((Inert.session s).bind fun _ => Inert.pure _ c').bind fun _ =>
      Inert.ite (ha c') (Inert.pure _ c')

end Ledger

namespace Ledger.Quiet

open Act Standing

variable {σ : Type} {L : Ledger σ} {h : Host σ} (quiet : L.Quiet h) {c : Scope} {v : Standing}
include quiet

theorem recordBindFailure (e : BreakEvent) (err : EngineError) :
    L.Leads (L.session.recordBindFailure h e err) c v fun _ v' =>
      v' = v.rebind (v.bindings.insert (.failed e err.message)) := by
  apply (quiet.log L.session false _ v).bind
  rintro _ v' rfl
  apply (Leads.modifyBindings _).bind
  rintro _ v' rfl
  exact (quiet.offerFault L.session _ _).discard

theorem addBreakEvent (e : BreakEvent) :
    L.Leads (L.session.addBreakEvent h e) c v fun _ v' => ∃ m, v' = v.bound e m := by
  apply (quiet.asked (.insert e)).bind
  rintro x v' ⟨m, hx, rfl⟩
  cases x with
  | ok b =>
      apply (Leads.modifyBindings _).bind
      rintro _ v' rfl
      refine Leads.pure ⟨m, ?_⟩
      simp only [bound, ← hx]
      rfl
  | error err =>
      apply (quiet.recordBindFailure e err).bind
      rintro _ v' rfl
      refine Leads.pure ⟨m, ?_⟩
      simp only [bound, ← hx]
      rfl

theorem removeBreakEvent (id : BreakEventId) :
    L.Leads (L.session.removeBreakEvent h id) c v fun _ v' => ∃ m, v' = v.unbound id m := by
  apply Leads.bindings.bind
  rintro t v' ⟨rfl, rfl⟩
  simp only [unbound]
  cases v'.bindings.get? id with
  | none => exact Leads.pure ⟨fun _ => .error .notRunning, rfl⟩
  | some r =>
      cases hhandle : r.handle with
      | none =>
          simp only [hhandle]
          apply (Leads.modifyBindings _).mono
          rintro _ v'' rfl
          exact ⟨fun _ => .error .notRunning, rfl⟩
      | some handle =>
          simp only [hhandle]
          apply (quiet.asked (.remove handle)).bind
          rintro x v'' ⟨m, hx, rfl⟩
          cases x with
          | ok _ =>
              apply (Leads.modifyBindings _).mono
              rintro _ v'' rfl
              exact ⟨m, by simp only [complied, ← hx]; rfl⟩
          | error err =>
              apply (quiet.reportEditFailure L.session r.breakEvent err _).mono
              rintro _ v'' rfl
              exact ⟨m, by simp only [complied, ← hx]⟩

theorem changeBreakEvent (e : BreakEvent) (change : BindingHandle → EngineRequest)
    (record : BreakEvent → BreakEvent) :
    L.Leads (L.session.changeBreakEvent h e change record) c v fun _ v' =>
      ∃ m, v' = v.changed e.id change record m := by
  apply Leads.bindings.bind
  rintro t v' ⟨rfl, rfl⟩
  simp only [changed]
  cases v'.bindings.get? e.id with
  | none => exact Leads.pure ⟨fun _ => .error .notRunning, rfl⟩
  | some r =>
      cases hhandle : r.handle with
      | none =>
          simp only [hhandle]
          exact Leads.pure ⟨fun _ => .error .notRunning, rfl⟩
      | some handle =>
          simp only [hhandle]
          apply (quiet.asked (change handle)).bind
          rintro x v'' ⟨m, hx, rfl⟩
          cases x with
          | ok _ =>
              apply (Leads.modifyBindings _).mono
              rintro _ v'' rfl
              exact ⟨m, by simp only [complied, ← hx]; rfl⟩
          | error err =>
              apply (quiet.reportEditFailure L.session e err _).mono
              rintro _ v'' rfl
              exact ⟨m, by simp only [complied, ← hx]⟩

theorem follow (hheld : v.session.held = true) (a : Announcement) :
    L.Leads (L.session.follow h a) c v fun _ v' => ∃ m, v' = v.followed c.thread a m := by
  simp only [SessionId.follow, followed]
  cases a.change with
  | added =>
      apply (Leads.isAdjusting hheld).bind
      rintro b v' ⟨rfl, rfl⟩
      cases v'.bindings.isEditing c.thread with
      | true => exact Leads.pure ⟨fun _ => .error .notRunning, by simp⟩
      | false => exact Leads.whenStarted hheld fun _ => (quiet.addBreakEvent a.event).discard
  | removed =>
      apply (Leads.isAdjusting hheld).bind
      rintro b v' ⟨rfl, rfl⟩
      cases v'.bindings.isEditing c.thread with
      | true => exact Leads.pure ⟨fun _ => .error .notRunning, by simp⟩
      | false => exact Leads.whenStarted hheld fun _ => quiet.removeBreakEvent a.event.id
  | modified => exact Leads.whenStarted hheld fun _ => quiet.changeBreakEvent a.event _ _
  | enableChanged => exact Leads.whenStarted hheld fun _ => quiet.changeBreakEvent a.event _ _
  | statusChanged => exact Leads.pure ⟨fun _ => .error .notRunning, by simp⟩

variable {s : SessionId} (hs : s ≠ L.session)
include hs

theorem addBreakEvent_other (e : BreakEvent) : L.Inert (s.addBreakEvent h e) c := by
  refine (quiet.answer_other hs (.insert e)).bind fun x => ?_
  cases x with
  | ok b => exact (Inert.modifySession hs _).bind fun _ => Inert.pure _ c
  | error err =>
      refine Inert.bind ?_ fun _ => Inert.pure _ c
      exact (quiet.log s false _).bind fun _ => (Inert.modifySession hs _).bind fun _ =>
        (quiet.offerFault s _).discard

theorem removeBreakEvent_other (id : BreakEventId) : L.Inert (s.removeBreakEvent h id) c := by
  refine ((Inert.session s).bind fun _ => Inert.pure _ c).bind fun t => ?_
  cases t.get? id with
  | none => exact Inert.pure _ c
  | some r =>
      obtain ⟨e, handle, status, message⟩ := r
      cases handle with
      | none => exact Inert.modifySession hs _
      | some handle =>
          refine (quiet.answer_other hs (.remove handle)).bind fun x => ?_
          cases x with
          | ok _ => exact Inert.modifySession hs _
          | error err => exact quiet.reportEditFailure s e err

theorem changeBreakEvent_other (e : BreakEvent) (change : BindingHandle → EngineRequest)
    (record : BreakEvent → BreakEvent) : L.Inert (s.changeBreakEvent h e change record) c := by
  refine ((Inert.session s).bind fun _ => Inert.pure _ c).bind fun t => ?_
  cases t.get? e.id with
  | none => exact Inert.pure _ c
  | some r =>
      obtain ⟨e', handle, status, message⟩ := r
      cases handle with
      | none => exact Inert.pure _ c
      | some handle =>
          refine (quiet.answer_other hs (change handle)).bind fun x => ?_
          cases x with
          | ok _ => exact Inert.modifySession hs _
          | error err => exact quiet.reportEditFailure s e err

theorem follow_other (a : Announcement) : L.Inert (s.follow h a) c := by
  simp only [SessionId.follow]
  cases a.change with
  | added =>
      refine (Inert.isAdjusting s).bind fun adjusting => ?_
      cases adjusting with
      | true => exact Inert.pure _ c
      | false => exact Inert.whenStarted fun _ => (quiet.addBreakEvent_other hs a.event).discard
  | removed =>
      refine (Inert.isAdjusting s).bind fun adjusting => ?_
      cases adjusting with
      | true => exact Inert.pure _ c
      | false => exact Inert.whenStarted fun _ => quiet.removeBreakEvent_other hs a.event.id
  | modified => exact Inert.whenStarted fun _ => quiet.changeBreakEvent_other hs a.event _ _
  | enableChanged => exact Inert.whenStarted fun _ => quiet.changeBreakEvent_other hs a.event _ _
  | statusChanged => exact Inert.pure _ c

end Ledger.Quiet

end DebugSession
