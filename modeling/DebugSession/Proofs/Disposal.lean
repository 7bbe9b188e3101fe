import DebugSession.Proofs.Finality
import DebugSession.Proofs.Scripted

namespace DebugSession

open Act

/-- What may happen next. There may be several workers, each with a command in its hands. -/
inductive Move
  | perform (thread : Thread) (s : SessionId) (o : Operation)
  | arrange (s : SessionId) (m : Session → Session) (hm : Session.Aside m)
  | take (s : SessionId)
  | carryOut (s : SessionId) (k : Command)

def Move.after {σ : Type} (h : Host (Noted σ)) (w : World (Noted σ)) : Move → World (Noted σ)
  | perform t s o => (run (o.ask h s) ⟨t, [], []⟩ w).2
  | arrange s m _ => w.withSession s m
  | take s =>
    match (w.session s).queue.take? with
    | none => w
    | some (_, q) => w.withSession s ({ · with queue := q })
  | carryOut s k =>
    if k ∈ (w.session s).queue.running then
      (run (s.work h k) ⟨.worker s, [], []⟩ w).2.finish s k
    else w

section Hosts

variable {σ : Type}

theorem Operation.ask_obeys {h : Host (Noted σ)} (minds : h.Minds) (s : SessionId) (o : Operation) :
    Obeys (Act.enduring σ) (o.ask h s) := by
  cases o with
  | command k => exact fun c w => minds.enduring_issue s k c w
  | _ => exact minds.abides.perform (enduring_eventful σ) s fun k hk => nomatch hk

theorem HostProgram.obeys {α : Type} {access : Access (Noted σ)}
    {types : String → Act (Noted σ) (Option String)}
    (haccess : ∀ s o, Obeys (Act.enduring σ) (access s o))
    (htypes : ∀ name, Obeys (Act.enduring σ) (types name)) (x : HostProgram σ α) :
    Obeys (Act.enduring σ) (x.play access types) := by
  induction x with
  | done x => exact Obeys.pure x
  | panic p => exact Obeys.throw p
  | consult next ih => exact Obeys.get (fun _ => rfl) fun w => ih w.host.1
  | remember f next ih =>
      have hremember : Obeys (Act.enduring σ) (modifyHost fun m : Noted σ => (f m.1, m.2)) :=
        fun _ w => Enduring.of_eq rfl rfl fun s => .refl (w.session s)
      exact hremember.bind fun _ => ih
  | perform s o next ih => exact (haccess s o).bind fun x => ih x
  | arrange s m hm next ih =>
      have harrange : Obeys (Act.enduring σ) (modifySession s m) :=
        fun _ w => Enduring.withSession (hm.lasts (w.session s))
      exact harrange.bind fun _ => ih
  | ask name next ih => exact (htypes name).bind fun x => ih x

namespace HostBehavior

variable (behavior : HostBehavior σ) (rest : Host (Noted σ)) {access : Access (Noted σ)}
  (haccess : ∀ s o, Obeys (Act.enduring σ) (access s o))

include haccess

theorem call_obeys (x : Contact) {types : String → Act (Noted σ) (Option String)}
    (htypes : ∀ name, Obeys (Act.enduring σ) (types name)) :
    Obeys (Act.enduring σ) (behavior.call access x types) := by
  have hnote : Obeys (Act.enduring σ) (note (.called x)) := fun _ w => Enduring.called w x
  exact hnote.bind fun _ => HostProgram.obeys haccess htypes (behavior x)

theorem calling_minds : (rest.calling (behavior.call access)).Minds := by
  refine ⟨rest.calling_abides fun x types htypes => behavior.call_obeys haccess x htypes, ?_⟩
  intro s k e c w
  have hplay : Enduring (w.noted (.called (.observe s k e)))
      (run (behavior.call access (.observe s k e) fun _ => pure none) c w).2 :=
    HostProgram.obeys haccess (fun _ => Obeys.pure none) (behavior (.observe s k e)) c _
  refine Nat.lt_of_lt_of_le ?_ hplay.length_le
  simp [World.noted]

omit haccess

theorem minds (n : Nat) : (behavior.host rest n).Minds := by
  -- On the depth: a call gets at sessions through the host of the next depth.
  induction n with
  | zero => exact behavior.calling_minds rest fun _ _ => Obeys.throw _
  | succ n ih => exact behavior.calling_minds rest fun s o => o.ask_obeys ih s

end HostBehavior

end Hosts

section Runs

variable {σ : Type} {h : Host (Noted σ)} (minds : h.Minds)

include minds

theorem Host.Minds.enduring_carryOut (s : SessionId) (k : Command) (c : Scope) {w : World (Noted σ)}
    (hs : s.index < w.sessions.size) : Enduring w ((run (s.work h k) c w).2.finish s k) := by
  have hexecute : Enduring w (run (s.execute h k) c w).2 := minds.abides.execute (enduring_eventful σ) s k c w
  rw [SessionId.run_work]
  have hkeep (w : World (Noted σ)) (es : List SessionError) : Enduring w (w.keep s es) :=
    Enduring.withSession (.of_eq rfl id rfl)
  refine (hexecute.trans (hkeep _ _)).trans (Enduring.withSession (.finish ?_))
  rintro rfl
  exact (hkeep _ _).disposed s (minds.disposed_execute s c hs)

theorem Move.enduring (w : World (Noted σ)) (m : Move) : Enduring w (m.after h w) := by
  cases m with
  | perform t s o => exact o.ask_obeys minds s ⟨t, [], []⟩ w
  | arrange s m hm => exact Enduring.withSession (hm.lasts (w.session s))
  | take s =>
      simp only [after]
      split
      · exact .refl w
      · rename_i k q hq
        exact Enduring.withSession (.take hq)
  | carryOut s k =>
      simp only [after]
      split
      · rename_i hk
        refine minds.enduring_carryOut s k _ (Nat.lt_of_not_le fun hs => ?_)
        rw [World.session_of_size_le hs] at hk
        cases hk
      · exact .refl w

theorem Move.enduring_foldl (w : World (Noted σ)) (moves : List Move) :
    Enduring w (moves.foldl (Move.after h) w) := by
  induction moves generalizing w with
  | nil => exact .refl w
  | cons m rest ih => exact (Move.enduring minds w m).trans (ih _)

end Runs

/-- When a call to dispose of a session has returned, the session is disposed and all other commands
come to nothing; or workers carry its commands out and have still to dispose of it, and till then
commands that pass their check do not come to nothing. -/
theorem final_once_disposed {σ : Type} (behavior : HostBehavior σ) (rest : Host (Noted σ)) (n : Nat)
    {w : World (Noted σ)} (hlog : w.host.2 = []) (moves : List Move) :
    (moves.foldl (Move.after (behavior.host rest n)) w).Final := by
  refine (Move.enduring_foldl (behavior.minds rest n) w moves).final ⟨?_, ?_⟩
  · rintro past s k x later heq
    rw [hlog] at heq
    exact absurd heq.symm (by simp)
  · rintro s - ⟨x, hx⟩
    rw [hlog] at hx
    cases hx

namespace Line

def carriedOut? : Line → Option Command
  | called (.answer _ (.command k)) => some k
  | _ => none

def issued? : Line → Option Command
  | issued _ k _ => some k
  | _ => none

def isDisposal (s : SessionId) : Line → Bool
  | returned t .dispose (.ok (.ok ())) _ => t == s
  | _ => false

theorem isDisposal_iff {s : SessionId} {l : Line} :
    l.isDisposal s = true ↔ ∃ x, l = .returned s .dispose (.ok (.ok ())) x := by
  constructor
  · intro hl
    unfold isDisposal at hl
    split at hl
    · rw [eq_of_beq hl]
      exact ⟨_, rfl⟩
    · cases hl
  · rintro ⟨x, rfl⟩
    exact beq_self_eq_true s

end Line

instance (s : SessionId) (log : List Line) : Decidable (DisposeReturned s log) :=
  decidable_of_iff (log.any (·.isDisposal s) = true) <| by
    simp only [DisposeReturned, List.any_eq_true, Line.isDisposal_iff]
    constructor
    · rintro ⟨l, hl, x, rfl⟩
      exact ⟨x, hl⟩
    · rintro ⟨x, hx⟩
      exact ⟨_, hx, x, rfl⟩

namespace Scripted

def meddling : HostBehavior Simulation.Memory
  | .answer s (.command .stop) =>
    .perform s (.command .dispose) fun _ => .perform s (.command .proceed) fun _ => .done (.ok ())
  | .answer _ q => .done (willing [] q)
  | .allowsChanges _ => .done true
  | .resolveExpression _ _ _ => .done (.ok none)
  | .vetoes _ _ | .handleFault _ _ | .customHit _ _ _ => .done false
  | .resolveType _ _ _ | .provideEvaluator _ _ => .done none
  | .observe _ _ _ | .storeChanged _ _ _ | .write _ _ _ | .trace _ _ _ => .done ()

def overheard (dispatch : Dispatch) : World (Noted Simulation.Memory) :=
  { host := (default, [])
    sessions := #[{ Session.new { dispatch := dispatch } ⟨0⟩ with
      observers := (({} : Observers CallbackId).subscribe none ⟨0⟩).2 }]
    routers := #[{}] }

def stopping : List Move := .perform (.caller 0) self (.command .stop) ::
  [.stop, .dispose, .proceed].flatMap fun k => [.take self, .carryOut self k]

end Scripted

theorem final_while_stopping :
    let w := Scripted.stopping.foldl
      (Move.after (Scripted.meddling.host (Simulation.host default) 2)) (Scripted.overheard .inline)
    (Scripted.overheard .inline).host.2 = [] ∧ w.Final ∧ DisposeReturned Scripted.self w.host.2 ∧
      w.host.2.filterMap Line.issued? = [.stop, .dispose, .proceed] ∧
      w.host.2.filterMap Line.carriedOut? = [.stop] := by
  intro w
  exact ⟨rfl,
    final_once_disposed Scripted.meddling (Simulation.host default) 2 rfl Scripted.stopping,
    by decide +kernel, by decide +kernel, by decide +kernel⟩

/-- With a worker, the engine lets the target go on after the call to dispose of the session has
returned, and even after the session is disposed. -/
theorem not_final_with_worker :
    let w := Scripted.stopping.foldl
      (Move.after (Scripted.meddling.host (Simulation.host default) 2)) (Scripted.overheard .worker)
    ∃ past x later, w.host.2 = past ++ .issued Scripted.self .proceed x :: later ∧
      DisposeReturned Scripted.self past ∧ .proceed ∈ later.filterMap Line.carriedOut? ∧
      (w.session Scripted.self).lifecycle.disposed = true ∧
      x.lifecycle.running = false ∧ (w.session Scripted.self).lifecycle.running = true := by
  intro w
  have hissued : (w.host.2[5]?).any (fun l => match l with
      | .issued s k x => s == Scripted.self && k == .proceed && !x.lifecycle.running
      | _ => false) = true := by decide +kernel
  cases hl : w.host.2[5]? with
  | none =>
      rw [hl] at hissued
      cases hissued
  | some l =>
      rw [hl, Option.any_some] at hissued
      split at hissued
      · rename_i s k x
        simp only [Bool.and_eq_true, beq_iff_eq, Bool.not_eq_true'] at hissued
        obtain ⟨⟨rfl, rfl⟩, hx⟩ := hissued
        obtain ⟨hn, hget⟩ := List.getElem?_eq_some_iff.mp hl
        refine ⟨w.host.2.take 5, x, w.host.2.drop 6, ?_, by decide +kernel, by decide +kernel,
          by decide +kernel, hx, by decide +kernel⟩
        rw [← hget, ← List.drop_eq_getElem_cons hn, List.take_append_drop]
      · cases hissued

end DebugSession
