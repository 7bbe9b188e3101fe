import DebugSession.Proofs.AfterDisposal

namespace DebugSession

def World.Final {σ : Type} (w : World (Noted σ)) : Prop :=
  DebugSession.Final w.sessions.size w.host.2 ∧
    ∀ s, s.index < w.sessions.size → DisposeReturned s w.host.2 → (w.session s).Over

structure Enduring {σ : Type} (w w' : World (Noted σ)) : Prop where
  size : w'.sessions.size = w.sessions.size
  disposed : ∀ s, (w.session s).lifecycle.disposed = true →
    (w'.session s).lifecycle.disposed = true
  log : ∃ ls, w'.host.2 = w.host.2 ++ ls ∧ Whole ls
  final : w.Final → w'.Final

namespace Enduring

variable {σ : Type} {w w' w'' : World (Noted σ)} {s : SessionId} {m : Session → Session}

theorem of_eq (hlog : w'.host.2 = w.host.2) (hsize : w'.sessions.size = w.sessions.size)
    (hsession : ∀ s, Session.Lasts (w.session s) (w'.session s)) : Enduring w w' := by
  refine ⟨hsize, fun s => (hsession s).disposed, ⟨[], ?_, .nil⟩, ?_⟩
  · rw [hlog, List.append_nil]
  · rintro ⟨hfinal, hover⟩
    rw [World.Final, hlog, hsize]
    exact ⟨hfinal, fun s hs hreturned => (hsession s).stays (hover s hs hreturned)⟩

theorem refl (w : World (Noted σ)) : Enduring w w := of_eq rfl rfl fun s => .refl (w.session s)

theorem trans (hw : Enduring w w') (hw' : Enduring w' w'') : Enduring w w'' := by
  obtain ⟨ls, hls, hwhole⟩ := hw.log
  obtain ⟨ms, hms, hwhole'⟩ := hw'.log
  refine ⟨hw'.size.trans hw.size, fun s hs => hw'.disposed s (hw.disposed s hs),
    ⟨ls ++ ms, ?_, hwhole.append hwhole'⟩, fun hfinal => hw'.final (hw.final hfinal)⟩
  rw [hms, hls, List.append_assoc]

theorem length_le (hw : Enduring w w') : w.host.2.length ≤ w'.host.2.length := by
  obtain ⟨ls, hls, -⟩ := hw.log
  rw [hls, List.length_append]
  exact Nat.le_add_right _ _

theorem withSession (hm : Session.Lasts (w.session s) (m (w.session s))) :
    Enduring w (w.withSession s m) := by
  refine of_eq rfl World.size_withSession fun t => ?_
  by_cases hst : s = t
  · subst hst
    by_cases hs : s.index < w.sessions.size
    · rw [World.session_withSession_self hs]
      exact hm
    · have hsize : (w.withSession s m).sessions.size ≤ s.index := by
        rw [World.size_withSession]
        exact Nat.le_of_not_lt hs
      rw [World.session_of_size_le hsize, World.session_of_size_le (Nat.le_of_not_lt hs)]
      exact .refl _
  · rw [World.session_withSession_of_ne hst]
    exact .refl _

/-- Calls are written down, and nothing else comes of that. -/
theorem called (w : World (Noted σ)) (x : Contact) : Enduring w (w.noted (.called x)) := by
  have hopens : Opens [Line.called x] := by
    intro s k r y hhead
    cases hhead
  refine ⟨rfl, fun _ => id, ⟨[.called x], rfl, hopens, ?_⟩, ?_⟩
  · intro s k y hlast
    cases hlast
  · rintro ⟨hfinal, hover⟩
    refine ⟨hfinal.append hopens ?_, fun s hs hreturned => hover s hs ?_⟩
    · intro past s k y later heq
      rcases past with _ | ⟨l, _ | ⟨l', rest⟩⟩ <;> cases heq
    · refine hreturned.append.resolve_right ?_
      rintro ⟨y, hy⟩
      cases List.mem_singleton.mp hy

end Enduring

open Act

theorem Session.Aside.lasts {m : Session → Session} (hm : Session.Aside m) (x : Session) :
    Session.Lasts x (m x) :=
  .of_eq (congrArg SessionConfig.dispatch (hm.config x))
    (fun hx => (congrArg Lifecycle.disposed (hm.lifecycle x)).trans hx) (hm.queue x)

theorem Enduring.course (σ : Type) : World.Course (Enduring (σ := σ)) where
  same := fun hhost hsessions => .of_eq (congrArg Prod.snd hhost) (congrArg Array.size hsessions)
    fun s => by
      simp only [World.session, hsessions]
      exact .refl _
  trans := Enduring.trans
  aside := fun _ _ _ hm => Enduring.withSession (hm.lasts _)

def Act.enduring (σ : Type) : Act.Law (Noted σ) := (Enduring.course σ).law

theorem Act.enduring_eventful (σ : Type) : (Act.enduring σ).Eventful where
  transition _ t _ _ := Enduring.withSession (.of_eq rfl (Lifecycle.disposed_after · t) rfl)
  noting _ e _ _ :=
    Enduring.withSession (.of_eq rfl (Lifecycle.disposed_after · (.reported e.kind)) rfl)

/-- Whatever the host does, it undoes nothing; and it writes down what it is told. -/
structure Host.Minds {σ : Type} (h : Host (Noted σ)) : Prop where
  abides : h.Abides (Act.enduring σ)
  observe : ∀ s k e c w, w.host.2.length < (run (h.observe s k e) c w).2.host.2.length

namespace Host.Minds

variable {σ : Type} {h : Host (Noted σ)} (minds : h.Minds) (s : SessionId) (k : Command) (c : Scope)
  {w : World (Noted σ)}

include minds

theorem disposed_tearDown (hs : s.index < w.sessions.size) :
    ((run (s.tearDown h) c w).2.session s).lifecycle.disposed = true := by
  simp only [SessionId.tearDown]
  rw [SessionId.run_session_bind]
  cases hx : (w.session s).lifecycle.disposed with
  | true => exact hx
  | false =>
      have hdisposed : ((w.withSession s fun x =>
          { x with lifecycle := x.lifecycle.after .disposed }).session s).lifecycle.disposed = true := by
        rw [World.session_withSession_self hs]
        rfl
      cases (w.session s).ownsStore with
      | true => exact hdisposed
      | false => exact (minds.abides.setStore s none c _).disposed s hdisposed

theorem disposed_execute (hs : s.index < w.sessions.size) :
    ((run (s.execute h .dispose) c w).2.session s).lifecycle.disposed = true := by
  have hbody := minds.disposed_tearDown s (c.locking s) hs
  rw [SessionId.execute_dispose]
  change ((run (s.tearDown h >>= _) (c.locking s) w).2.session s).lifecycle.disposed = true
  rw [run_bind]
  rcases hrun : run (s.tearDown h) (c.locking s) w with ⟨p | u, w'⟩ <;> rw [hrun] at hbody <;>
    exact hbody

/-- Where callers carry out their commands the disposal is done when its call returns; otherwise a
worker has been told of it. -/
theorem over_dispose (hs : s.index < w.sessions.size) {w' : World (Noted σ)}
    (hrun : run (s.command h .dispose) c w = (.ok (.ok ()), w')) : (w'.session s).Over := by
  cases hlive : w.isLive s c with
  | false =>
      rw [s.run_command_of_not_live h rfl hlive] at hrun
      cases hrun
  | true =>
      rw [s.run_command_of_live h rfl hlive] at hrun
      change run (s.handOver h .dispose (w.session s).config.dispatch) _ w = _ at hrun
      cases hdispatch : (w.session s).config.dispatch with
      | inline =>
          rw [hdispatch] at hrun
          have hdisposed := minds.disposed_execute s ((c.inside s).locking s) hs
          change run (s.execute h .dispose) _ w = _ at hrun
          rw [hrun] at hdisposed
          exact .inl hdisposed
      | worker =>
          rw [hdispatch] at hrun
          obtain rfl : w.accept s .dispose = w' := congrArg Prod.snd hrun
          rw [World.accept, World.session_withSession_self hs]
          refine .inr ⟨hdispatch, ?_⟩
          simp [CommandQueue.accept]

omit minds in
theorem run_command_of_disposed (hk : k.needsLiveSession = true)
    (hx : (w.session s).lifecycle.disposed = true) :
    ∃ r, run (s.command h k) c w = (.ok r, w) := by
  cases hcheck : k.check with
  | error e => exact ⟨.error e, s.run_command_of_error h hcheck c w⟩
  | ok u =>
      cases hlive : w.isLive s c with
      | false => exact ⟨_, s.run_command_of_not_live h hcheck hlive⟩
      | true =>
          have hletIn : run (s.letIn h k) (c.inside s) w = (.ok false, w) := by
            change run (do
              if k.needsLiveSession && (w.session s).lifecycle.disposed then return false
              if k.resumes then s.announceStart h
              return true) _ w = _
            rw [hk, hx]
            rfl
          refine ⟨.ok (), ?_⟩
          rw [s.run_command_of_live h hcheck hlive, SessionId.takeIn, run_bind,
            SessionId.run_takeOptions, World.withSession_eq_self (Session.taking_of_disposed k hx)]
          simp only [hletIn]

theorem enduring_command (w : World (Noted σ)) : Enduring w (run (s.command h k) c w).2 :=
  (Enduring.course σ).command minds.abides (enduring_eventful σ)
    (fun _ => Enduring.withSession (.accept _ k)) c w

/-- The announcement of a start is written down, unless there is nobody to hear it. -/
theorem announceStart_unseen (w : World (Noted σ)) :
    w.host.2.length < (run (s.announceStart h) c w).2.host.2.length ∨
      run (s.announceStart h) c w = (.ok (), w.withSession s fun x =>
        { x with lifecycle := x.lifecycle.after .resumed }) := by
  let w' := w.withSession s fun x => { x with lifecycle := x.lifecycle.after .resumed }
  have hrun : run (s.announceStart h) c w =
      run (((w'.session s).observers.audience .started).forM (h.observe s · .started)) c w' := rfl
  rw [hrun]
  cases (w'.session s).observers.audience .started with
  | nil => exact .inr rfl
  | cons key rest =>
      left
      have hfirst := minds.observe s key .started c w'
      have hrest : Act.Obeys (Act.enduring σ) (rest.forM (h.observe s · .started)) :=
        Act.Obeys.forM fun key => minds.abides.observe s key .started
      change w'.host.2.length < (run (do
        h.observe s key .started
        rest.forM (h.observe s · .started)) c w').2.host.2.length
      rw [run_bind]
      rcases hrun : run (h.observe s key .started) c w' with ⟨p | u, w''⟩ <;> rw [hrun] at hfirst
      · exact hfirst
      · exact Nat.lt_of_lt_of_le hfirst (hrest c w'').length_le

theorem takeIn_unseen (hs : s.index < w.sessions.size)
    (hx : (w.session s).lifecycle.disposed = false) :
    w.host.2.length < (run (s.takeIn h k) c w).2.host.2.length ∨
      ∃ w', run (s.takeIn h k) c w = (.ok true, w') ∧
        w'.sessions.size = w.sessions.size ∧ (w'.session s).queue = (w.session s).queue := by
  let w' := w.withSession s (·.taking k)
  have hqueue : (w'.session s).queue = (w.session s).queue := by
    rw [World.session_withSession_self hs]
    exact congrArg HiddenState.queue (Session.hidden_taking k _)
  have hsize : w'.sessions.size = w.sessions.size := World.size_withSession
  have hx' : (w'.session s).lifecycle.disposed = false := by
    rw [World.session_withSession_self hs, Session.lifecycle_taking]
    exact hx
  have hrun : run (s.takeIn h k) c w = run (do
      if k.resumes then s.announceStart h
      return true) (c.locking s) w' := by
    rw [SessionId.takeIn, run_bind, SessionId.run_takeOptions]
    change run (do
      if k.needsLiveSession && (w'.session s).lifecycle.disposed then return false
      if k.resumes then s.announceStart h
      return true) (c.locking s) w' = _
    rw [hx', Bool.and_false]
    rfl
  rw [hrun]
  cases k.resumes with
  | false => exact .inr ⟨w', rfl, hsize, hqueue⟩
  | true =>
      simp only [if_true]
      rw [run_bind]
      rcases minds.announceStart_unseen s (c.locking s) w' with hseen | hunseen
      · left
        rcases hstart : run (s.announceStart h) (c.locking s) w' with ⟨p | u, w''⟩ <;>
          rw [hstart] at hseen <;> exact hseen
      · right
        rw [hunseen]
        refine ⟨_, rfl, World.size_withSession.trans hsize, ?_⟩
        rw [World.session_withSession_self (hsize ▸ hs)]
        exact hqueue

/-- While the disposal waits for a worker, a command that nobody hears of goes to the queue. -/
theorem queue_of_unseen (hcheck : k.check = .ok ()) (hs : s.index < w.sessions.size)
    (hx : (w.session s).lifecycle.disposed = false) (hclosing : (w.session s).Closing)
    (hunseen : (run (s.command h k) c w).2.host.2.length ≤ w.host.2.length) :
    ((run (s.command h k) c w).2.session s).queue = (w.session s).queue.accept k := by
  have hlive : w.isLive s c = true := by
    have hbusy : (w.session s).queue.isIdle = false := by
      have hmem := hclosing.2
      rw [CommandQueue.isIdle, Bool.eq_false_iff]
      intro hidle
      simp only [Bool.and_eq_true, List.isEmpty_iff] at hidle
      rw [hidle.1, hidle.2] at hmem
      cases hmem
    rw [World.isLive, hbusy, Bool.not_false, Bool.or_true, Bool.true_or]
  rw [s.run_command_of_live h hcheck hlive, hclosing.1] at hunseen ⊢
  rcases minds.takeIn_unseen s k (c.inside s) hs hx with hseen | ⟨w', hrun, hsize, hqueue⟩
  · exfalso
    rcases hrun : run (s.takeIn h k) (c.inside s) w with ⟨p | (_ | _), w'⟩ <;>
      rw [hrun] at hseen hunseen
    · exact Nat.not_lt_of_le hunseen hseen
    · exact Nat.not_lt_of_le hunseen hseen
    · exact Nat.not_lt_of_le hunseen hseen
  · rw [hrun]
    change ((w'.accept s k).session s).queue = _
    rw [World.accept, World.session_withSession_self (hsize ▸ hs), hqueue]

end Host.Minds

/-- What an issue comes to, from what the command came to. -/
theorem Enduring.issue {σ : Type} {w w' : World (Noted σ)} {s : SessionId} {k : Command}
    {r : Except Panic (Except SessionError Unit)} {ls : List Line}
    (hsize : w'.sessions.size = w.sessions.size)
    (hdisposed : ∀ t, (w.session t).lifecycle.disposed = true →
      (w'.session t).lifecycle.disposed = true)
    (hls : w'.host.2 = w.host.2 ++ .issued s k (w.session s) :: ls) (hwhole : Whole ls)
    (hinner : w.Final → ∀ past s' k' x' later, ls = past ++ .issued s' k' x' :: later →
      s'.index < w.sessions.size → k'.needsLiveSession = true →
      DisposeReturned s' (w.host.2 ++ .issued s k (w.session s) :: past) →
      AfterDisposal s' k' x' later)
    (houter : w.Final → s.index < w.sessions.size → k.needsLiveSession = true →
      DisposeReturned s w.host.2 →
      AfterDisposal s k (w.session s) (ls ++ [.returned s k r (w'.session s)]))
    (hover : w.Final → ∀ t, t.index < w.sessions.size → DisposeReturned t w'.host.2 →
      (w'.session t).Over)
    (hdispose : k = .dispose → r = .ok (.ok ()) → s.index < w.sessions.size →
      (w'.session s).Over) :
    Enduring w (w'.noted (.returned s k r (w'.session s))) := by
  have hlog : (w'.noted (.returned s k r (w'.session s))).host.2 =
      w.host.2 ++ .issued s k (w.session s) :: (ls ++ [.returned s k r (w'.session s)]) := by
    simp [World.noted, hls]
  refine ⟨hsize, hdisposed, ⟨_, hlog, ?_, ?_⟩, fun hw => ⟨?_, fun t ht hreturned => ?_⟩⟩
  · intro _ _ _ _ hhead
    cases hhead
  · intro _ _ _ hlast
    rw [← List.cons_append, List.getLast?_concat] at hlast
    cases hlast
  · rw [hlog]
    change DebugSession.Final w'.sessions.size _
    rw [hsize]
    exact hw.1.close hwhole (hinner hw) (houter hw)
  · have ht' : t.index < w.sessions.size := hsize ▸ ht
    rcases hreturned.append with hbefore | ⟨y, hy⟩
    · exact hover hw t ht' hbefore
    · cases List.mem_singleton.mp hy
      exact hdispose rfl rfl ht'

/-- A command that is issued to a session that is not disposed is judged later. -/
theorem World.Final.issued {σ : Type} {w : World (Noted σ)} (hw : w.Final) {s : SessionId}
    {k : Command} (hx : k.needsLiveSession = true → (w.session s).lifecycle.disposed = false) :
    (w.noted (.issued s k (w.session s))).Final := by
  constructor
  · refine hw.1.append (fun _ _ _ _ hhead => by cases hhead) ?_
    intro past s' k' x later heq hs hk hreturned
    rcases past with _ | ⟨l, _ | ⟨l', rest⟩⟩
    · cases heq
      rw [List.append_nil] at hreturned
      have hdisposed := hx hk
      refine .inr ⟨hdisposed, (hw.2 s hs hreturned).resolve_left ?_, ?_⟩
      · rw [hdisposed]
        exact Bool.false_ne_true
      · rintro - ⟨r, hr⟩
        cases hr
    · cases heq
    · cases heq
  · intro t ht hreturned
    refine hw.2 t ht (hreturned.append.resolve_right ?_)
    rintro ⟨y, hy⟩
    cases List.mem_singleton.mp hy

namespace Host.Minds

variable {σ : Type} {h : Host (Noted σ)} (s : SessionId) (k : Command) (c : Scope)
  (w : World (Noted σ))

theorem enduring_issue_of_disposed (hk : k.needsLiveSession = true)
    (hx : (w.session s).lifecycle.disposed = true) : Enduring w (run (s.issue h k) c w).2 := by
  obtain ⟨r, hrun⟩ := run_command_of_disposed (h := h) s k c
    (w := w.noted (.issued s k (w.session s))) hk hx
  rw [s.run_issue h k c w hrun]
  refine Enduring.issue rfl (fun _ => id) rfl .nil ?_ ?_ ?_ ?_
  · rintro - past s' k' x' later heq
    cases past <;> cases heq
  · exact fun _ _ _ _ => .inl ⟨hx, _, rfl⟩
  · intro hw t ht hreturned
    refine hw.2 t ht (hreturned.append.resolve_right ?_)
    rintro ⟨y, hy⟩
    cases List.mem_singleton.mp hy
  · rintro rfl
    cases hk

theorem enduring_issue_of_live (minds : h.Minds)
    (hx : k.needsLiveSession = true → (w.session s).lifecycle.disposed = false) :
    Enduring w (run (s.issue h k) c w).2 := by
  let w₁ := w.noted (.issued s k (w.session s))
  have henduring : Enduring w₁ (run (s.command h k) c w₁).2 := minds.enduring_command s k c w₁
  have hunseen := minds.queue_of_unseen s k c (w := w₁)
  have hdispose := minds.over_dispose s c (w := w₁)
  rcases hrun : run (s.command h k) c w₁ with ⟨r, w₂⟩
  rw [s.run_issue h k c w hrun]
  rw [hrun] at henduring hunseen
  obtain ⟨ls, hls, hwhole⟩ := henduring.log
  have hls' : w₂.host.2 = w.host.2 ++ .issued s k (w.session s) :: ls := by
    rw [hls]
    simp [w₁, World.noted]
  have hsize : w₂.sessions.size = w.sessions.size := henduring.size
  have hfinal (hw : w.Final) : w₂.Final := henduring.final (hw.issued hx)
  refine Enduring.issue henduring.size henduring.disposed hls' hwhole ?_ ?_ ?_ ?_
  · intro hw past s' k' x' later heq hs hk hreturned
    refine (hfinal hw).1 _ s' k' x' later ?_ (hsize ▸ hs) hk hreturned
    rw [hls', heq]
    simp
  · intro hw hs hk hreturned
    have hdisposed := hx hk
    have hclosing : (w.session s).Closing := (hw.2 s hs hreturned).resolve_left <| by
      rw [hdisposed]
      exact Bool.false_ne_true
    refine .inr ⟨hdisposed, hclosing, ?_⟩
    rintro hcheck ⟨r', hr'⟩
    cases ls with
    | nil =>
        -- Nothing was written meanwhile, so that the command is in the queue, which was shorter before.
        rw [List.append_nil] at hls
        have hqueue := hunseen hcheck hs hdisposed hclosing (Nat.le_of_eq (congrArg _ hls))
        have hsame : w₂.session s = w.session s :=
          (Line.returned.inj (Option.some.inj hr')).2.2.2
        rw [hsame] at hqueue
        have hlength := congrArg (fun q : CommandQueue => q.waiting.length) hqueue
        change _ = ((w.session s).queue.waiting ++ [k]).length at hlength
        rw [List.length_append, List.length_singleton] at hlength
        omega
    | cons l rest => exact hwhole.opens s k r' _ hr'
  · intro hw t ht hreturned
    exact (hfinal hw).2 t (hsize ▸ ht) hreturned
  · rintro rfl rfl hs
    exact hdispose hs hrun

theorem enduring_issue (minds : h.Minds) : Enduring w (run (s.issue h k) c w).2 := by
  cases hk : k.needsLiveSession && (w.session s).lifecycle.disposed with
  | true =>
      rw [Bool.and_eq_true] at hk
      exact enduring_issue_of_disposed s k c w hk.1 hk.2
  | false =>
      refine enduring_issue_of_live s k c w minds fun hneeds => ?_
      rw [hneeds, Bool.true_and] at hk
      exact hk

end Host.Minds

end DebugSession
