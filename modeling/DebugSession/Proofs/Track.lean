import DebugSession.Proofs.Acceptance

namespace DebugSession

open Act

/-- A relation that a world has to what the smallest steps make of it, and what they make of that,
as long as no list of processes changes. -/
structure World.Track {σ : Type} (R : World σ → World σ → Prop) : Prop where
  same : ∀ {w w'}, w'.host = w.host → w'.sessions = w.sessions → R w w'
  trans : ∀ {w w' w''}, R w w' → R w' w'' → R w w''
  unlisted : ∀ w s {m : Session → Session}, (∀ x, (m x).processes = x.processes) →
    R w (w.withSession s m)

namespace World.Track

variable {σ α β : Type} {R : World σ → World σ → Prop} (track : World.Track R)

def rule : Act.Rule σ where
  Holds a := ∀ c w, R w (run a c w).2
  pure := fun _ _ _ => track.same rfl rfl
  throw := fun _ _ _ => track.same rfl rfl
  bind := Makes.bind (R := R) track.trans
  locked := @Makes.locked σ R
  keeping := @Makes.keeping σ R
  editing := by
    intro α s a ha c w
    exact Makes.editing (R := R) track.trans (fun w s _ => track.unlisted w s fun _ => rfl)
      (fun w s _ => track.unlisted w s fun _ => rfl) s ha c w
  isLive := fun _ _ _ => track.same rfl rfl
  lockedElsewhere := fun _ _ _ => track.same rfl rfl
  isAdjusting := Makes.isAdjusting (R := R) fun _ => track.same rfl rfl
  get := fun _ ha c w => ha w c w
  modifySession := fun s _ hm _ w => track.unlisted w s hm.processes
  setStore := fun _ _ _ _ => track.same rfl rfl
  newStore := fun _ _ => track.same rfl rfl

theorem satisfies {a : Act σ α} (ha : ∀ c w, R w (run a c w).2) : Satisfies track.rule a := ha

theorem modifySession (s : SessionId) {m : Session → Session}
    (hm : ∀ x, (m x).processes = x.processes) :
    Satisfies track.rule (Act.modifySession s m : Act σ Unit) :=
  track.satisfies fun _ w => track.unlisted w s hm

theorem lively : track.rule.Lively := ⟨fun s _ => track.modifySession s fun _ => rfl⟩

/-- All of a session may be read, for nothing is said of how worlds that look alike compare. -/
theorem session {s : SessionId} {f : Session → Act σ β} (hf : ∀ x, Satisfies track.rule (f x)) :
    Satisfies track.rule (Act.session s >>= f) := track.satisfies fun c w => hf _ c w

section Commands

variable {track} {h : Host σ} {s : SessionId} {k : Command}
  (hexecute : Satisfies track.rule (s.execute h k))

include hexecute

theorem handOver (dispatch : Dispatch) : Satisfies track.rule (s.handOver h k dispatch) := by
  cases dispatch with
  | inline => exact hexecute
  | worker =>
      exact Satisfies.bind
        (track.modifySession s (m := fun x => { x with queue := x.queue.accept k }) fun _ => rfl)
        fun _ => Satisfies.pure _

theorem accept (hstart : Satisfies track.rule (s.announceStart h)) :
    Satisfies track.rule (s.accept h k) := by
  refine Satisfies.locked s (track.session fun x => Satisfies.ite (Satisfies.pure _) ?_)
  cases k.resumes with
  | true => exact hstart.bind fun _ => handOver hexecute x.config.dispatch
  | false => exact handOver hexecute x.config.dispatch

/-- A command is as its body is, wherever that is carried out. -/
theorem command (hstart : Satisfies track.rule (s.announceStart h)) :
    Satisfies track.rule (s.command h k) := by
  simp only [SessionId.command]
  cases k.check with
  | error e => exact Satisfies.pure _
  | ok _ =>
      refine Satisfies.entering (Satisfies.locked s ?_)
      exact (Host.Respects.takeOptions s k).bind fun _ => accept hexecute hstart

theorem work : Satisfies track.rule (s.work h k) := by
  refine track.satisfies fun c w => ?_
  rw [SessionId.run_work]
  exact track.trans (hexecute c w) (track.unlisted _ s fun _ => rfl)

end Commands

end World.Track

end DebugSession
