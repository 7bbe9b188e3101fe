import DebugSession.Proofs.Disposal
import DebugSession.Proofs.StoreNews
import DebugSession.Proofs.ProcessLog
import DebugSession.Proofs.Track

namespace DebugSession

open Act

abbrev Logged (σ : Type) := σ × List ProcessEntry

section Worlds

variable {σ : Type}

def World.withEntry (w : World (Logged σ)) (j : ProcessEntry) : World (Logged σ) :=
  { w with host := (w.host.1, w.host.2 ++ [j]) }

def World.withProcesses (w : World σ) (s : SessionId) (ps : Option (List ProcessInfo)) : World σ :=
  w.withSession s ({ · with processes := ps })

def World.heard (w : World (Logged σ)) (s : SessionId) (start : Nat)
    (r : Except EngineError (List ProcessInfo)) : World (Logged σ) :=
  match r with
  | .ok ps =>
    (w.withEntry (.answered start (.ok ps))).withProcesses s (some (ProcessLog.owned s ps))
  | .error e => w.withEntry (.answered start (.error e))

/-- There is a session, which holds the list that is known, and all that is written of it was
due. -/
structure World.ListKept (s : SessionId) (w : World (Logged σ)) : Prop where
  lt : s.index < w.sessions.size
  list : (w.session s).processes = (ProcessLog.known w.host.2).map fun x => ProcessLog.owned s x.2
  proper : ProcessLog.Proper s w.host.2

/-- What holds of a world and any that it comes to: what is written stays, the engine answers only
what it is asked for from then on, and the list that the session holds goes on to be the known
one. -/
structure KeepsList (s : SessionId) (w w' : World (Logged σ)) : Prop where
  log : ∃ new, w'.host.2 = w.host.2 ++ new ∧
    ∀ start r, .answered start r ∈ new → w.host.2.length ≤ start
  kept : w.ListKept s → w'.ListKept s

namespace KeepsList

open ProcessLog

variable {s u : SessionId} {w w' w'' : World (Logged σ)}

theorem of_eq (hlog : w'.host.2 = w.host.2) (hsize : w'.sessions.size = w.sessions.size)
    (hlist : (w'.session s).processes = (w.session s).processes) : KeepsList s w w' where
  log := ⟨[], by rw [hlog, List.append_nil], fun _ _ h => nomatch h⟩
  kept h := ⟨hsize ▸ h.lt, by rw [hlist, hlog, h.list], hlog ▸ h.proper⟩

theorem trans (h : KeepsList s w w') (h' : KeepsList s w' w'') : KeepsList s w w'' := by
  obtain ⟨new, hnew, hstart⟩ := h.log
  obtain ⟨new', hnew', hstart'⟩ := h'.log
  refine ⟨⟨new ++ new', by rw [hnew', hnew, List.append_assoc], fun start r hmem => ?_⟩,
    fun hw => h'.kept (h.kept hw)⟩
  rcases List.mem_append.mp hmem with hmem | hmem
  · exact hstart start r hmem
  · have hle := hstart' start r hmem
    rw [hnew, List.length_append] at hle
    omega

theorem withSession {m : Session → Session} (hm : u ≠ s ∨ ∀ x, (m x).processes = x.processes) :
    KeepsList s w (w.withSession u m) := by
  refine of_eq rfl World.size_withSession ?_
  rcases hm with hne | hm
  · rw [World.session_withSession_of_ne hne]
  · exact World.map_session_withSession hm s

theorem track (s : SessionId) : World.Track (KeepsList (σ := σ) s) where
  same hhost hsessions := of_eq (by rw [hhost]) (by rw [hsessions])
    (by rw [World.session, World.session, hsessions])
  trans := trans
  unlisted _ _ _ hm := withSession (.inr hm)

/-- What is written but for events and answers of the engine. -/
theorem withEntry {j : ProcessEntry} (hdue : w.ListKept s → Due s w.host.2 j) (hevent : j ≠ .event)
    (hanswer : ∀ start r, j ≠ .answered start r) : KeepsList s w (w.withEntry j) where
  log := ⟨[j], rfl, fun start r hmem => absurd (List.mem_singleton.mp hmem).symm (hanswer start r)⟩
  kept h := by
    have hlist : isList j = false := by
      cases j with
      | answered start r => exact absurd rfl (hanswer start r)
      | event | asked | called | returned => rfl
    refine ⟨h.lt, ?_, h.proper.concat (hdue h)⟩
    change (w.session s).processes = (known (w.host.2 ++ [j])).map _
    rw [known_concat, taking_of_plain hevent hlist, h.list]

theorem size_withProcesses (ps : Option (List ProcessInfo)) :
    (w.withProcesses s ps).sessions.size = w.sessions.size := World.size_withSession

theorem session_withProcesses (hs : s.index < w.sessions.size) (ps : Option (List ProcessInfo)) :
    ((w.withProcesses s ps).session s).processes = ps := by
  rw [World.withProcesses, World.session_withSession_self hs]

theorem event (w : World (Logged σ)) :
    KeepsList s w ((w.withEntry .event).withProcesses s none) where
  log := ⟨[.event], rfl, fun _ _ hmem => by simp at hmem⟩
  kept h := by
    refine ⟨(size_withProcesses none).symm ▸ h.lt, ?_, h.proper.concat trivial⟩
    refine (session_withProcesses (w := w.withEntry .event) h.lt none).trans ?_
    change none = (known (w.host.2 ++ [.event])).map _
    rw [known_concat]
    rfl

theorem asked (hnone : (w.session s).processes = none) : KeepsList s w (w.withEntry .asked) :=
  withEntry (fun hw => Option.map_eq_none_iff.mp (hw.list.symm.trans hnone)) nofun nofun

theorem log_heard (w : World (Logged σ)) (s : SessionId) (start : Nat)
    (r : Except EngineError (List ProcessInfo)) :
    (w.heard s start r).host.2 = w.host.2 ++ [.answered start r] := by cases r <;> rfl

/-- The engine answers what it was asked for in between. -/
theorem heard {w₁ : World (Logged σ)} (hcall : KeepsList s (w.withEntry .asked) w₁)
    (hnone : (w.session s).processes = none) (r : Except EngineError (List ProcessInfo)) :
    KeepsList s w (w₁.heard s w.host.2.length r) := by
  obtain ⟨new, hnew, hstart⟩ := hcall.log
  have hlog : w₁.host.2 = w.host.2 ++ .asked :: new := by
    rw [hnew]
    simp [World.withEntry]
  have hstart (start : Nat) (r : Except EngineError (List ProcessInfo))
      (hmem : .answered start r ∈ new) : w.host.2.length < start := by
    have hle := hstart start r hmem
    simp only [World.withEntry, List.length_append, List.length_singleton] at hle
    omega
  refine ⟨⟨.asked :: new ++ [.answered w.host.2.length r], ?_, fun start r' hmem => ?_⟩,
    fun hw => ?_⟩
  · rw [log_heard, hlog, List.append_assoc]
  · simp only [List.cons_append, List.mem_cons, List.mem_append, List.not_mem_nil, or_false,
      reduceCtorEq, false_or, ProcessEntry.answered.injEq] at hmem
    rcases hmem with hmem | ⟨rfl, -⟩
    · exact Nat.le_of_lt (hstart start r' hmem)
    · exact Nat.le_refl _
  · have hw₁ := hcall.kept ((asked hnone).kept hw)
    have hdue : Due s w₁.host.2 (.answered w.host.2.length r) := by
      rw [hlog]
      refine ⟨by simp, fun start' r' hmem => ?_⟩
      rw [List.drop_left, List.mem_cons] at hmem
      exact hmem.elim nofun (hstart start' r')
    have hproper : Proper s (w₁.heard s w.host.2.length r).host.2 :=
      log_heard w₁ s _ r ▸ hw₁.proper.concat hdue
    cases r with
    | ok ps =>
        refine ⟨(size_withProcesses _).symm ▸ hw₁.lt, ?_, hproper⟩
        rw [log_heard, known_concat]
        exact session_withProcesses (w := w₁.withEntry _) hw₁.lt _
    | error e =>
        refine ⟨hw₁.lt, ?_, hproper⟩
        rw [log_heard, known_concat]
        exact hw₁.list

theorem returned {r : Except SessionError (List ProcessInfo)}
    (hdue : w.ListKept s → Due s w.host.2 (.returned r)) :
    KeepsList s w (w.withEntry (.returned r)) :=
  withEntry hdue nofun nofun

end KeepsList

end Worlds

section Logging

variable {σ : Type} (me : SessionId)

def Act.logEntry (j : ProcessEntry) : Act (Logged σ) Unit := modifyHost fun m => (m.1, m.2 ++ [j])

def Act.logEntryIf (p : Bool) (j : ProcessEntry) : Act (Logged σ) Unit :=
  if p then logEntry j else pure ()

def Act.heralded {α : Type} (s : SessionId) (a : Act (Logged σ) α) : Act (Logged σ) α :=
  if s = me then do logEntry .event; a else a

variable (h : Host (Logged σ))

def Operation.logging (s : SessionId) : (o : Operation) → Act (Logged σ) o.Answer
  | .targetEvent e => entering s () (heralded me s (s.targetEvent h e))
  | .started t => entering s () (heralded me s (s.engineStarted h t))
  | .processes =>
    if s = me then do
      Act.logEntry .called
      let r ← s.processes h
      Act.logEntry (.returned r)
      return r
    else s.processes h
  | o => o.perform h s

/-- Hosts arrange sessions as they like, but not the list of processes. -/
def Session.unlisted (m : Session → Session) (x : Session) : Session :=
  { m x with processes := x.processes }

def HostProgram.logging {α : Type} (access : Access (Logged σ))
    (types : String → Act (Logged σ) (Option String)) : HostProgram σ α → Act (Logged σ) α
  | done x => pure x
  | panic p => throw p
  | consult next => do (next (← Act.host).1).logging access types
  | remember f next => do
    modifyHost fun m => (f m.1, m.2)
    next.logging access types
  | perform s o next => do (next (← access s o)).logging access types
  | arrange s m _ next => do
    modifySession s (Session.unlisted m)
    next.logging access types
  | ask name next => do (next (← types name)).logging access types

/-- Calls as they are, but that it is written down when the engine is asked for the processes and
has answered, and when it fails at a command for which an event stands in. -/
def loggedCall
    (call : (x : Contact) → (String → Act (Logged σ) (Option String)) → Act (Logged σ) x.Answer) :
    (x : Contact) → (String → Act (Logged σ) (Option String)) → Act (Logged σ) x.Answer
  | .answer s .processes, types =>
    if s = me then do
      let start := (← Act.host).2.length
      Act.logEntry .asked
      let r ← call (.answer s .processes) types
      Act.logEntry (.answered start r)
      return r
    else call (.answer s .processes) types
  | .answer s (.command k), types =>
    if s = me then do
      let r ← call (.answer s (.command k)) types
      Act.logEntryIf (!r.isOk && k.recovery.isSome) .event
      return r
    else call (.answer s (.command k)) types
  | x, types => call x types

def Host.logging (rest : Host (Logged σ))
    (call : (x : Contact) → (String → Act (Logged σ) (Option String)) → Act (Logged σ) x.Answer) :
    Host (Logged σ) :=
  rest.calling (loggedCall me call)

def HostBehavior.loggingHost (behavior : HostBehavior σ) (rest : Host (Logged σ)) :
    Nat → Host (Logged σ)
  | 0 => rest.logging me fun x => (behavior x).logging fun _ _ => throw ⟨some "stack overflow"⟩
  | n + 1 => rest.logging me fun x => (behavior x).logging fun s o =>
      o.logging me (behavior.loggingHost rest n) s

def Move.logging (w : World (Logged σ)) : Move → World (Logged σ)
  | perform t s o => (run (o.logging me h s) ⟨t, [], []⟩ w).2
  | arrange s m _ => w.withSession s (Session.unlisted m)
  | take s =>
    match (w.session s).queue.take? with
    | none => w
    | some (_, q) => w.withSession s ({ · with queue := q })
  | carryOut s k =>
    if k ∈ (w.session s).queue.running then
      (run (s.work h k) ⟨.worker s, [], []⟩ w).2.finish s k
    else w

end Logging

theorem SessionId.run_processes_of_live {σ : Type} (s : SessionId) (h : Host σ) {c : Scope}
    {w : World σ} (hlive : w.isLive s c = true) : run (s.processes h) c w =
      match (w.session s).processes with
      | some ps => (.ok (.ok ps), w)
      | none => run (s.listProcesses h) (c.inside s) w := by
  rw [processes, s.run_entering_of_live _ hlive]
  change run (match (w.session s).processes with
    | some ps => pure (.ok ps)
    | none => s.listProcesses h) (c.inside s) w = _
  cases (w.session s).processes <;> rfl

theorem SessionId.run_ask_of_live {σ : Type} (s : SessionId) (h : Host σ) (q : EngineRequest)
    {c : Scope} {w : World σ} (hlive : w.isLive s c = true) :
    run (s.ask h q) c w = match run ((h.engine s).answer q).run (c.inside s) w with
      | (.ok r, w') => (.ok (r.mapError (.command q.name)), w')
      | (.error p, w') => (.error p, w') := by
  rw [ask, s.run_entering_of_live _ hlive]
  refine (run_bind ((h.engine s).answer q).run _ (c.inside s) w).trans ?_
  rcases run ((h.engine s).answer q).run (c.inside s) w with ⟨p | e | x, w'⟩ <;> rfl

section Operations

variable {σ α β : Type} {me : SessionId}

def keepsList (me : SessionId) : Act.Rule (Logged σ) := (KeepsList.track me).rule

theorem keepsList_lively : (keepsList (σ := σ) me).Lively := (KeepsList.track me).lively

def Drops (me : SessionId) (a : Act (Logged σ) α) : Prop :=
  ∀ c w, KeepsList me (w.withProcesses me none) (run a c w).2

theorem Drops.bind {a : Act (Logged σ) α} {f : α → Act (Logged σ) β} (ha : Drops me a)
    (hf : ∀ x, Satisfies (keepsList me) (f x)) : Drops me (a >>= f) := by
  intro c w
  have hfirst := ha c w
  rw [run_bind]
  rcases hrun : run a c w with ⟨p | x, w'⟩ <;> rw [hrun] at hfirst
  · exact hfirst
  · exact hfirst.trans (hf x c w')

theorem Drops.heralded {a : Act (Logged σ) α} (ha : Drops me a) :
    Satisfies (keepsList me) (do Act.logEntry .event; a) :=
  fun c w => (KeepsList.event w).trans (ha c _)

theorem noting_drops (e : TargetEvent) :
    Drops me (modifySession me (SessionId.noting · e) : Act (Logged σ) Unit) := by
  intro c w
  refine .of_eq rfl ?_ ?_
  · exact World.size_withSession.trans (KeepsList.size_withProcesses none).symm
  · by_cases hme : me.index < w.sessions.size
    · rw [KeepsList.session_withProcesses hme]
      exact congrArg Session.processes (World.session_withSession_self hme)
    · have hout {w' : World (Logged σ)} (hsize : w'.sessions.size = w.sessions.size) :
          w'.session me = default := World.session_of_size_le (hsize ▸ Nat.le_of_not_lt hme)
      rw [hout (KeepsList.size_withProcesses none)]
      exact congrArg Session.processes (hout World.size_withSession)

theorem noting_satisfies {s : SessionId} (hs : s ≠ me) (e : TargetEvent) :
    Satisfies (keepsList me) (modifySession s (SessionId.noting · e) : Act (Logged σ) Unit) :=
  fun _ _ => .withSession (.inl hs)

variable (rest : Host (Logged σ))
  {call : (x : Contact) → (String → Act (Logged σ) (Option String)) → Act (Logged σ) x.Answer}

theorem engine_logging {s : SessionId} (hs : s ≠ me) :
    (rest.logging me call).engine s = (rest.calling call).engine s := by
  have hanswer : (fun q => ExceptT.mk (loggedCall me call (.answer s q) fun _ => pure none) :
      (q : EngineRequest) → Attempt (Act (Logged σ)) q.Answer) =
      fun q => ExceptT.mk (call (.answer s q) fun _ => pure none) := by
    funext q
    cases q with
    | processes | command k => exact congrArg ExceptT.mk (if_neg hs)
    | _ => rfl
  simp only [Host.logging, Host.calling, hanswer]
  rfl

theorem perform_logging (s : SessionId) {o : Operation} (ho : o.isEventful = false)
    (hlist : o ≠ .processes) :
    o.perform (rest.logging me call) s = o.perform (rest.calling call) s := by
  cases o with
  | command k | targetEvent e | started t => cases ho
  | processes => exact absurd rfl hlist
  | _ => rfl

variable (respects : (rest.calling call).Respects (keepsList me))

include respects

theorem targetEvent_drops (e : TargetEvent) :
    Drops me (me.targetEvent (rest.logging me call) e) :=
  (noting_drops (SessionId.attachEvent me e)).bind fun _ =>
    (respects.emitTo me _).bind fun _ => respects.emitTo me _

theorem targetEvent_satisfies (s : SessionId) (e : TargetEvent) :
    Satisfies (keepsList me) (heralded me s (s.targetEvent (rest.logging me call) e)) := by
  by_cases hs : s = me
  · subst hs
    rw [heralded, if_pos rfl]
    exact (targetEvent_drops rest respects e).heralded
  · rw [heralded, if_neg hs]
    exact respects.targetEvent (noting_satisfies hs) e

theorem engineStarted_satisfies (s : SessionId) (t : Option ThreadInfo) :
    Satisfies (keepsList me) (heralded me s (s.engineStarted (rest.logging me call) t)) := by
  have hstarted : heralded me s (s.engineStarted (rest.logging me call) t) = (do
      heralded me s (s.targetEvent (rest.logging me call) { kind := .ready, thread := t })
      s.getReady (rest.logging me call)) := by
    by_cases hs : s = me
    · simp only [heralded, if_pos hs, bind_assoc]
      rfl
    · simp only [heralded, if_neg hs]
      rfl
  rw [hstarted]
  exact (targetEvent_satisfies rest respects s _).bind fun _ => respects.getReady keepsList_lively s

theorem recover_satisfies (k : Command) (err : EngineError) : Satisfies (keepsList me) (do
    Act.logEntryIf k.recovery.isSome .event
    me.recover (rest.logging me call) k err) := by
  have hfault : Satisfies (keepsList me) (do
      return if ← me.offerFault (rest.logging me call) (.command k.name err) then Except.ok ()
        else Except.error (SessionError.command k.name err) : Act (Logged σ) _) :=
    (respects.offerFault me _).bind fun _ => Satisfies.pure _
  simp only [SessionId.recover]
  cases k.recovery with
  | none => exact (Satisfies.pure ()).bind fun _ => hfault
  | some kind =>
      exact ((targetEvent_drops rest respects { kind := kind }).bind fun _ => hfault).heralded

theorem execute_satisfies (s : SessionId) (k : Command) :
    Satisfies (keepsList me) (s.execute (rest.logging me call) k) := by
  by_cases hk : k = .dispose
  · subst hk
    rw [SessionId.execute_dispose]
    exact Satisfies.locked s ((respects.tearDown keepsList_lively s).bind fun _ => Satisfies.pure _)
  · rw [s.execute_eq _ hk]
    refine Satisfies.locked s ?_
    by_cases hs : s = me
    · subst hs
      have hanswer : (((rest.logging s call).engine s).answer (.command k)).run = (do
          let r ← call (.answer s (.command k)) fun _ => pure none
          Act.logEntryIf (!r.isOk && k.recovery.isSome) .event
          return r : Act (Logged σ) _) := if_pos rfl
      rw [hanswer]
      simp only [bind_assoc, pure_bind]
      -- The event that stands in for the command is written as soon as the engine has failed.
      refine Satisfies.bind (respects.answer s (.command k)) fun r => ?_
      cases r with
      | ok answer =>
          simp only [Except.isOk, Except.toBool, Bool.not_true, Bool.false_and, Act.logEntryIf,
            Bool.false_eq_true, if_false, pure_bind]
          exact (Host.Respects.settle keepsList_lively s k).bind fun _ => Satisfies.pure _
      | error err =>
          simp only [Except.isOk, Except.toBool, Bool.not_false, Bool.true_and]
          exact recover_satisfies rest respects k err
    · rw [engine_logging rest hs]
      refine (respects.answer s (.command k)).bind fun r => ?_
      cases r with
      | ok answer =>
          exact (Host.Respects.settle keepsList_lively s k).bind fun _ => Satisfies.pure _
      | error err => exact respects.recover (noting_satisfies hs) k err

omit respects in
theorem run_answer (c : Scope) (w : World (Logged σ)) :
    run (((rest.logging me call).engine me).answer .processes).run c w =
      match run (call (.answer me .processes) fun _ => pure none) c (w.withEntry .asked) with
      | (.ok r, w₁) => (.ok r, w₁.withEntry (.answered w.host.2.length r))
      | (.error p, w₁) => (.error p, w₁) := by
  have hanswer : (((rest.logging me call).engine me).answer .processes).run = (do
      let m ← Act.host
      Act.logEntry .asked
      let r ← call (.answer me .processes) fun _ => pure none
      Act.logEntry (.answered m.2.length r)
      return r : Act (Logged σ) _) := if_pos rfl
  rw [hanswer]
  refine (run_bind (call (.answer me .processes) fun _ => pure none) _ c
    (w.withEntry .asked)).trans ?_
  rcases run (call (.answer me .processes) fun _ => pure none) c (w.withEntry .asked) with
    ⟨p | r, w₁⟩ <;> rfl

omit respects in
/-- The engine is asked, and its answer remembered if it is a list. -/
theorem run_listProcesses {c : Scope} {w : World (Logged σ)} (hlive : w.isLive me c = true) :
    run (me.listProcesses (rest.logging me call)) c w =
      match run (call (.answer me .processes) fun _ => pure none) (c.inside me)
        (w.withEntry .asked) with
      | (.ok r, w₁) => (.ok (ProcessLog.told me r), w₁.heard me w.host.2.length r)
      | (.error p, w₁) => (.error p, w₁) := by
  simp only [SessionId.listProcesses]
  rw [run_bind, me.run_ask_of_live _ _ hlive, run_answer]
  rcases run (call (.answer me .processes) fun _ => pure none) (c.inside me)
    (w.withEntry .asked) with ⟨p | e | ps, w₁⟩ <;> rfl

/-- A call for the list of processes, in a world where it is written that it was made. -/
theorem processes_keepsList {c : Scope} {w : World (Logged σ)}
    (hlast : w.host.2.getLast? = some .called) :
    match run (me.processes (rest.logging me call)) c w with
    | (.ok r, w₁) => KeepsList me w (w₁.withEntry (.returned r))
    | (.error _, w₁) => KeepsList me w w₁ := by
  cases hlive : w.isLive me c with
  | false =>
      rw [SessionId.processes, me.run_entering_of_not_live _ hlive]
      refine .returned fun hw => ?_
      simp [ProcessLog.Due, hlast]
  | true =>
      rw [me.run_processes_of_live _ hlive]
      cases hlist : (w.session me).processes with
      | some ps =>
          refine .returned fun hw => ?_
          obtain ⟨⟨start, ps'⟩, hknown, hps⟩ := Option.map_eq_some_iff.mp (hw.list.symm.trans hlist)
          simp only [ProcessLog.Due, hlast]
          exact .inr ⟨start, ps', hknown, congrArg Except.ok hps.symm⟩
      | none =>
          have hinside : w.isLive me (c.inside me) = true := by
            simp [World.isLive, Scope.inside]
          have hcall := respects.answer me .processes ((c.inside me).inside me) (w.withEntry .asked)
          dsimp only
          rw [run_listProcesses rest hinside]
          change KeepsList me (w.withEntry .asked) (run (call _ _) _ _).2 at hcall
          rcases hr : run (call (.answer me .processes) fun _ => pure none)
            ((c.inside me).inside me) (w.withEntry .asked) with ⟨p | r, w₁⟩ <;> rw [hr] at hcall
          · exact (KeepsList.asked hlist).trans hcall
          · refine (hcall.heard hlist r).trans (.returned fun _ => ?_)
            rw [KeepsList.log_heard]
            simp [ProcessLog.Due]

theorem processes_satisfies (s : SessionId) :
    Satisfies (keepsList me) (Operation.logging me (rest.logging me call) s .processes) := by
  by_cases hs : s = me
  · subst hs
    intro c w
    let w₀ := w.withEntry .called
    have hcalled : KeepsList s w w₀ := .withEntry (fun _ => trivial) nofun nofun
    have hrun : run (Operation.logging s (rest.logging s call) s .processes) c w =
        match run (s.processes (rest.logging s call)) c w₀ with
        | (.ok r, w₁) => (.ok r, w₁.withEntry (.returned r))
        | (.error p, w₁) => (.error p, w₁) := by
      simp only [Operation.logging, if_pos]
      refine (run_bind (s.processes (rest.logging s call)) _ c w₀).trans ?_
      rcases run (s.processes (rest.logging s call)) c w₀ with ⟨p | r, w₁⟩ <;> rfl
    have hprocesses := processes_keepsList rest respects (c := c) (w := w₀) List.getLast?_concat
    rw [hrun]
    rcases hr : run (s.processes (rest.logging s call)) c w₀ with ⟨p | r, w₁⟩ <;>
      rw [hr] at hprocesses <;> exact hcalled.trans hprocesses
  · simp only [Operation.logging, if_neg hs]
    have hprocesses : s.processes (rest.logging me call) = s.processes (rest.calling call) := by
      simp only [SessionId.processes, SessionId.listProcesses, SessionId.ask,
        engine_logging rest hs]
    rw [hprocesses]
    exact respects.processes s fun _ => fun _ _ => .withSession (.inl hs)

theorem logging_satisfies (s : SessionId) (o : Operation) :
    Satisfies (keepsList me) (o.logging me (rest.logging me call) s) := by
  by_cases hplain : o.isEventful = false ∧ o ≠ .processes
  · have hlogging : o.logging me (rest.logging me call) s = o.perform (rest.logging me call) s := by
      cases o with
      | targetEvent e | started t => cases hplain.1
      | processes => exact absurd rfl hplain.2
      | _ => rfl
    rw [hlogging, perform_logging rest s hplain.1 hplain.2]
    exact respects.perform_uneventful s hplain.1 hplain.2
  · cases o with
    | command k =>
        exact World.Track.command (execute_satisfies rest respects s k)
          (respects.announceStart keepsList_lively s)
    | targetEvent e => exact Satisfies.entering (targetEvent_satisfies rest respects s e)
    | started t => exact Satisfies.entering (engineStarted_satisfies rest respects s t)
    | processes => exact processes_satisfies rest respects s
    | _ => exact absurd ⟨rfl, nofun⟩ hplain

theorem keepsList_move (w : World (Logged σ)) (m : Move) :
    KeepsList me w (m.logging me (rest.logging me call) w) := by
  cases m with
  | perform t s o => exact logging_satisfies rest respects s o ⟨t, [], []⟩ w
  | arrange s m hm => exact .withSession (.inr fun _ => rfl)
  | take s =>
      simp only [Move.logging]
      split
      · exact .of_eq rfl rfl rfl
      · exact .withSession (.inr fun _ => rfl)
  | carryOut s k =>
      simp only [Move.logging]
      split
      · exact (World.Track.work (execute_satisfies rest respects s k) _ w).trans
          (.withSession (.inr fun _ => rfl))
      · exact .of_eq rfl rfl rfl

theorem keepsList_foldl (w : World (Logged σ)) (moves : List Move) :
    KeepsList me w (moves.foldl (Move.logging me (rest.logging me call)) w) := by
  induction moves generalizing w with
  | nil => exact .of_eq rfl rfl rfl
  | cons m rest' ih => exact (keepsList_move rest respects w m).trans (ih _)

end Operations

section Hosts

variable {σ : Type} {me : SessionId}

theorem HostProgram.logging_satisfies {α : Type} {access : Access (Logged σ)}
    {types : String → Act (Logged σ) (Option String)}
    (haccess : ∀ s o, Satisfies (keepsList me) (access s o))
    (htypes : ∀ name, Satisfies (keepsList me) (types name)) (x : HostProgram σ α) :
    Satisfies (keepsList me) (x.logging access types) := by
  induction x with
  | done x => exact Satisfies.pure x
  | panic p => exact Satisfies.throw p
  | consult next ih => exact Satisfies.get (fun _ => rfl) fun w => ih w.host.1
  | remember f next ih =>
      have hremember : Satisfies (keepsList me) (modifyHost fun m : Logged σ => (f m.1, m.2)) :=
        fun _ _ => .of_eq rfl rfl rfl
      exact hremember.bind fun _ => ih
  | perform s o next ih => exact (haccess s o).bind fun x => ih x
  | arrange s m hm next ih =>
      have harrange : Satisfies (keepsList me)
          (modifySession s (Session.unlisted m) : Act (Logged σ) Unit) :=
        fun _ _ => .withSession (.inr fun _ => rfl)
      exact harrange.bind fun _ => ih
  | ask name next ih => exact (htypes name).bind fun x => ih x

theorem HostBehavior.exists_respects (behavior : HostBehavior σ) (me : SessionId)
    (rest : Host (Logged σ)) (n : Nat) :
    ∃ call, behavior.loggingHost me rest n = rest.logging me call ∧
      (rest.calling call).Respects (keepsList me) := by
  -- On the depth, as a call gets at sessions through the host of the next depth.
  induction n with
  | zero =>
      exact ⟨_, rfl, rest.calling_respects fun x _ htypes =>
        HostProgram.logging_satisfies (fun _ _ => Satisfies.throw _) htypes (behavior x)⟩
  | succ n ih =>
      obtain ⟨call, hhost, respects⟩ := ih
      refine ⟨_, rfl, rest.calling_respects fun x _ htypes =>
        HostProgram.logging_satisfies (fun s o => ?_) htypes (behavior x)⟩
      rw [hhost]
      exact DebugSession.logging_satisfies rest respects s o

end Hosts

/-- Runs of hosts that do as they please. The session holds the list that it had of the engine last,
unless an event has come in since the engine answered. The engine is asked only while no list is
held, and a user is told at once what is held, or what the engine has just answered. What is held is
never older than the latest event, and the engine lists the processes once between two events, just
in case no event comes in, and no other list is had, while the engine lists them. -/
theorem processes_since_event {σ : Type} (behavior : HostBehavior σ) (rest : Host (Logged σ))
    (n : Nat) {me : SessionId} {w : World (Logged σ)} (hlog : w.host.2 = [])
    (hme : me.index < w.sessions.size) (hnone : (w.session me).processes = none)
    (moves : List Move) :
    let w' := moves.foldl (Move.logging me (behavior.loggingHost me rest n)) w
    let log := w'.host.2
    (w'.session me).processes = (ProcessLog.known log).map (fun x => ProcessLog.owned me x.2) ∧
    ProcessLog.Proper me log ∧
    (ProcessLog.UpToDate log ∧ ProcessLog.Sparing log ↔ ProcessLog.Undisturbed log) ∧
    (ProcessLog.Undisturbed log → ProcessLog.Prompt log ∧ ProcessLog.Sparing log) := by
  intro w' log
  obtain ⟨call, hhost, respects⟩ := behavior.exists_respects me rest n
  have hrun : KeepsList me w w' := by
    simp only [w', hhost]
    exact keepsList_foldl rest respects w moves
  have hfirst : w.ListKept me :=
    ⟨hme, by rw [hnone, hlog]; rfl, hlog ▸ ProcessLog.proper_nil me⟩
  have hlast := hrun.kept hfirst
  exact ⟨hlast.list, hlast.proper, hlast.proper.undisturbed_iff, fun h =>
    ⟨(hlast.proper.upToDate h).prompt, hlast.proper.sparing h⟩⟩

namespace Scripted

def app : ProcessInfo := { id := 7, name := "app" }

def raisingEvents : HostBehavior Simulation.Memory
  | .answer s .processes => .perform s (.targetEvent { kind := .threadStarted }) fun _ =>
      .done (.ok [app])
  | x => meddling x

def unasked : World (Logged Simulation.Memory) :=
  { host := (default, [])
    sessions := #[Session.new {} ⟨0⟩]
    routers := #[{}] }

def askedTwice : List Move :=
  [.perform (.caller 0) self .processes, .perform (.caller 0) self .processes]

end Scripted

theorem processes_askedTwice :
    let w := Scripted.askedTwice.foldl (Move.logging Scripted.self
      (Scripted.raisingEvents.loggingHost Scripted.self (Simulation.host default) 2))
      Scripted.unasked
    Scripted.unasked.host.2 = [] ∧ Scripted.self.index < Scripted.unasked.sessions.size ∧
      (Scripted.unasked.session Scripted.self).processes = none ∧
      (w.session Scripted.self).processes = some (ProcessLog.owned Scripted.self [Scripted.app]) ∧
      ProcessLog.Proper Scripted.self w.host.2 := by
  intro w
  have hself : Scripted.self.index < Scripted.unasked.sessions.size := Nat.one_pos
  obtain ⟨hlist, hproper, -⟩ := processes_since_event Scripted.raisingEvents
    (Simulation.host default) 2 rfl hself rfl Scripted.askedTwice
  have hknown : ProcessLog.known w.host.2 = some (1, [Scripted.app]) := by decide +kernel
  refine ⟨rfl, hself, rfl, hlist.trans ?_, hproper⟩
  exact congrArg (Option.map fun x => ProcessLog.owned Scripted.self x.2) hknown

/-- A list from before an event is handed out after it. -/
theorem not_prompt_askedTwice :
    let w := Scripted.askedTwice.foldl (Move.logging Scripted.self
      (Scripted.raisingEvents.loggingHost Scripted.self (Simulation.host default) 2))
      Scripted.unasked
    let ps := ProcessLog.owned Scripted.self [Scripted.app]
    Scripted.unasked.host.2 = [] ∧ (Scripted.unasked.session Scripted.self).processes = none ∧
      w.host.2 = [.called, .asked, .event, .answered 1 (.ok [Scripted.app]), .returned (.ok ps),
        .called, .returned (.ok ps)] ∧
      ¬ProcessLog.Prompt w.host.2 := by
  intro w ps
  have hlog : w.host.2 = [.called, .asked, .event, .answered 1 (.ok [Scripted.app]),
      .returned (.ok ps), .called, .returned (.ok ps)] := by decide +kernel
  refine ⟨rfl, rfl, hlog, fun hprompt => ?_⟩
  exact hprompt
    [.called, .asked, .event, .answered 1 (.ok [Scripted.app]), .returned (.ok ps)] ps []
    hlog 1 [Scripted.app] rfl (by simp)

end DebugSession
