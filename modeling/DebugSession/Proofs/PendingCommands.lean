import DebugSession.Proofs.Milestone

namespace DebugSession

namespace World

variable {σ : Type} {w : World σ} {s : SessionId} {q : CommandQueue}

theorem queue_of_queue? (hq : w.queue? s = some q) : (w.session s).queue = q := by
  obtain ⟨x, hx, rfl⟩ := Option.map_eq_some_iff.mp hq
  simp only [session, Array.getD_eq_getD_getElem?, hx, Option.getD_some]

theorem queue?_withSession {m : Session → Session} (f : CommandQueue → CommandQueue)
    (hm : ∀ x, (m x).queue = f x.queue) : (w.withSession s m).queue? s = (w.queue? s).map f := by
  rw [queue?, withSession_getElem?, if_pos rfl, Option.map_map, queue?, Option.map_map]
  exact congrArg (Option.map · w.sessions[s.index]?) (funext hm)

theorem queue?_withSession_of_eq {t : SessionId} {m : Session → Session}
    (hm : ∀ x, (m x).queue = x.queue) : (w.withSession t m).queue? s = w.queue? s := by
  simp only [queue?, withSession_getElem?]
  split
  · rw [Option.map_map]
    exact congrArg (Option.map · w.sessions[s.index]?) (funext hm)
  · rfl

theorem queue?_accept (hq : w.queue? s = some q) (k : Command) :
    (w.accept s k).queue? s = some (q.accept k) := by
  rw [accept, queue?_withSession (·.accept k) fun _ => rfl, hq, Option.map_some]

theorem queue?_keep (es : List SessionError) : (w.keep s es).queue? s = w.queue? s :=
  queue?_withSession_of_eq fun _ => rfl

theorem queue?_finish (hq : w.queue? s = some q) (k : Command) :
    (w.finish s k).queue? s = some (q.finish k) := by
  rw [finish, queue?_withSession (·.finish k) fun _ => rfl, hq, Option.map_some]

end World

namespace Act

variable {σ : Type}

def keepsQueue (σ : Type) (s : SessionId) : Law σ :=
  World.Course.law (R := fun w w' => w'.queue? s = w.queue? s)
    { same := fun _ hsessions => by rw [World.queue?, hsessions, World.queue?]
      trans := fun h h' => h'.trans h
      aside := fun _ _ _ hm => World.queue?_withSession_of_eq hm.queue }

theorem keepsQueue_eventful (σ : Type) (s : SessionId) : (keepsQueue σ s).Eventful :=
  ⟨fun _ _ _ _ => World.queue?_withSession_of_eq fun _ => rfl,
    fun _ _ _ _ => World.queue?_withSession_of_eq fun _ => rfl⟩

end Act

/-- No callback of the host issues a command of the session. -/
def Host.IssuesNothing {σ : Type} (h : Host σ) (s : SessionId) : Prop :=
  h.Abides (Act.keepsQueue σ s)

namespace Host.IssuesNothing

open Act

variable {σ : Type} {h : Host σ} {s : SessionId} (hnothing : h.IssuesNothing s) (k : Command)
  (c : Scope) (w : World σ)

include hnothing

theorem takeIn : (run (s.takeIn h k) c w).2.queue? s = w.queue? s :=
  Host.Abides.takeIn hnothing (keepsQueue_eventful σ s) s k c w

theorem execute : (run (s.execute h k) c w).2.queue? s = w.queue? s :=
  Host.Abides.execute hnothing (keepsQueue_eventful σ s) s k c w

theorem work : (run (s.work h k) c w).2.queue? s = w.queue? s := by
  rw [SessionId.run_work, World.queue?_keep]
  exact hnothing.execute k c w

end Host.IssuesNothing

theorem Conduct.issuesNothing {σ : Type} (conduct : Conduct σ) (rest : Host (Journaled σ)) (n : Nat)
    (s : SessionId) : (conduct.host rest n).IssuesNothing s :=
  conduct.abides rest (Act.keepsQueue_eventful (Journaled σ) s) (fun _ _ _ => rfl) n

structure ClientStep.Account (s : SessionId) (n : Nat) (q : CommandQueue) {σ : Type}
    (c : ClientStage) (x : Shared σ) (d : ClientStage) (y : Shared σ) (ks : List Command) :
    Prop where
  queue : y.world.queue? s = some { q with waiting := q.waiting ++ ks }
  closed : n = 0 → ks = []
  accepted : c.sent ++ (c.marks d).filterMap Mark.accepted? =
    (c.marks d).filterMap Mark.taken? ++ (ks ++ d.sent)
  announced : c.announcing ++ (c.marks d).filterMap Mark.announced? =
    ((c.marks d).filterMap Mark.accepted?).filter (·.resumes) ++ d.announcing
  pending : y.pending + c.sent.length = x.pending + ks.length + d.sent.length

theorem Command.filterMap_announced?_announcement (k : Command) :
    k.announcement.filterMap Mark.announced? = if k.resumes then [k] else [] := by
  unfold announcement
  split <;> rfl

theorem ClientStep.account {σ : Type} {h : Host σ} {s : SessionId} (hnothing : h.IssuesNothing s)
    {n i : Nat} {q : CommandQueue} {c d : ClientStage} {x y : Shared σ}
    (hstep : ClientStep h s n i c x d y) (hq : x.world.queue? s = some q)
    (hpending : c.sent.length ≤ x.pending) : ∃ ks, ClientStep.Account s n q c x d y ks := by
  have hsame : some { q with waiting := q.waiting ++ [] } = some q := by rw [List.append_nil]
  cases hstep with
  | takeIn k _ w hrun =>
      have hkept := hnothing.takeIn k (s.inside (.caller i)) x.world
      rw [hrun] at hkept
      refine ⟨[], (hkept.trans hq).trans hsame.symm, fun _ => rfl, ?_, ?_, rfl⟩
      · have haccepted : k.announcement.filterMap Mark.accepted? = [] := k.filterMap_announcement rfl
        have htaken : k.announcement.filterMap Mark.taken? = [] := k.filterMap_announcement rfl
        simp only [ClientStage.marks, haccepted, htaken]
        rfl
      · have haccepted : k.announcement.filterMap Mark.accepted? = [] := k.filterMap_announcement rfl
        simp only [ClientStage.marks, haccepted, k.filterMap_announced?_announcement]
        rfl
  | turnAway k _ r w hr hrun =>
      have hkept := hnothing.takeIn k (s.inside (.caller i)) x.world
      rw [hrun] at hkept
      exact ⟨[], (hkept.trans hq).trans hsame.symm, fun _ => rfl, rfl, rfl, rfl⟩
  | work k =>
      have hkept := hnothing.work k (s.within (.caller i)) x.world
      exact ⟨[], (hkept.trans hq).trans hsame.symm, fun _ => rfl, rfl, rfl, rfl⟩
  | send k _ hn =>
      refine ⟨[k], World.queue?_accept hq k, fun hzero => ?_, rfl, rfl, rfl⟩
      omega
  | handBack k =>
      refine ⟨[], hq.trans hsame.symm, fun _ => rfl, rfl, rfl, ?_⟩
      simp only [ClientStage.sent, List.length_cons, List.length_nil] at hpending ⊢
      omega
  | count k =>
      refine ⟨[], hq.trans hsame.symm, fun _ => rfl, rfl, ?_, ?_⟩
      · cases hk : k.resumes <;>
          simp [ClientStage.announcing, ClientStage.marks, Mark.announced?, Mark.accepted?, hk]
      · rfl
  | _ => exact ⟨[], hq.trans hsame.symm, fun _ => rfl, rfl, rfl, rfl⟩

structure WorkerStep.Account (s : SessionId) (q : CommandQueue) {σ : Type}
    (c : WorkerStage) (x : Shared σ) (d : WorkerStage) (y : Shared σ) (q' : CommandQueue) :
    Prop where
  queue : y.world.queue? s = some q'
  taken : q.waiting = (c.marks d).filterMap Mark.taken? ++ q'.waiting
  accepted : (c.marks d).filterMap Mark.accepted? = []
  announced : (c.marks d).filterMap Mark.announced? = []
  running : ∀ k, q'.running.count k + c.job.count k = q.running.count k + d.job.count k
  pending : y.pending + (q.waiting.length + q.running.length) =
    x.pending + (q'.waiting.length + q'.running.length)

theorem WorkerStep.account {σ : Type} {h : Host σ} {s : SessionId} (hnothing : h.IssuesNothing s)
    {i : Nat} {q : CommandQueue} {c d : WorkerStage} {x y : Shared σ}
    (hstep : WorkerStep h s i c x d y) (hq : x.world.queue? s = some q)
    (hrunning : ∀ k, c.job.count k ≤ q.running.count k)
    (hpending : q.running.length ≤ x.pending) :
    ∃ q', WorkerStep.Account s q c x d y q' := by
  cases hstep with
  | take k _ q' hq' =>
      rw [World.queue_of_queue? hq] at hq'
      obtain ⟨hwaiting, hrun⟩ := CommandQueue.take?_eq_some hq'
      refine ⟨q', ?_, hwaiting, rfl, rfl, fun k' => ?_, ?_⟩
      · refine (World.queue?_withSession (fun _ => q') fun _ => rfl).trans ?_
        rw [hq, Option.map_some]
      · rw [hrun]
        simp [WorkerStage.job]
      · rw [hwaiting, hrun]
        simp only [List.length_cons, List.length_append, List.length_nil, Shared.note]
        omega
  | carryOut k _ r w hrun =>
      have hkept := hnothing.execute k ⟨.worker s, [], []⟩ x.world
      rw [hrun] at hkept
      exact ⟨q, hkept.trans hq, rfl, rfl, rfl, fun _ => rfl, rfl⟩
  | report k _ r => exact ⟨q, (World.queue?_keep _).trans hq, rfl, rfl, rfl, fun _ => rfl, rfl⟩
  | finish k =>
      have hmem : k ∈ q.running := by
        rw [← List.count_pos_iff]
        exact Nat.lt_of_lt_of_le (by simp [WorkerStage.job]) (hrunning k)
      refine ⟨q.finish k, World.queue?_finish hq k, rfl, rfl, rfl, fun k' => ?_, ?_⟩
      · have hperm := (List.perm_cons_erase hmem).count_eq k'
        simp only [CommandQueue.finish, WorkerStage.job, List.count_nil, List.count_cons] at hperm ⊢
        omega
      · have hlength := (List.perm_cons_erase hmem).length_eq
        simp only [CommandQueue.finish, List.length_cons] at hlength ⊢
        omega
  | begin => exact ⟨q, hq, rfl, rfl, rfl, fun _ => rfl, rfl⟩

namespace Crew

variable {σ : Type} {h : Host σ} {s : SessionId} {n : Nat} {x x' : Crew σ} {q : CommandQueue}

/-- Where all commands are, from their announcement to their being taken, and how many are not
finished. -/
structure Accounted (s : SessionId) (n : Nat) (q : CommandQueue) (x : Crew σ) : Prop where
  queue : x.world.queue? s = some q
  closed : n = 0 → q.waiting = []
  accepted : x.log.filterMap Mark.accepted? =
    x.log.filterMap Mark.taken? ++ (q.waiting ++ x.ofClient ClientStage.sent)
  announced : x.log.filterMap Mark.announced? =
    (x.log.filterMap Mark.accepted?).filter (·.resumes) ++ x.ofClient ClientStage.announcing
  running : q.running.Perm (x.ofWorkers WorkerStage.job n)
  pending : x.pending =
    q.waiting.length + q.running.length + (x.ofClient ClientStage.sent).length

theorem Accounted.afterClient (hnothing : h.IssuesNothing s) (hx : x.Accounted s n q)
    (hguarded : x.Guarded) (hserved : x.Served n) {i : Nat} {c : ClientStage} {y : Shared σ}
    (hstep : ClientStep h s n i (x.clients i) x.toShared c y) :
    ∃ q', (x.afterClient i c y).Accounted s n q' := by
  have hsent := hguarded.ofClient_before hstep (f := ClientStage.sent) rfl
  have hsent' := hguarded.ofClient_afterClient hstep (f := ClientStage.sent) rfl
  have hannouncing := hguarded.ofClient_before hstep (f := ClientStage.announcing) rfl
  have hannouncing' := hguarded.ofClient_afterClient hstep (f := ClientStage.announcing) rfl
  have hlog : (x.afterClient i c y).log = x.log ++ (x.clients i).marks c := hstep.log
  have hpending := hx.pending
  rw [hsent] at hpending
  obtain ⟨ks, hks⟩ := hstep.account hnothing hx.queue (by omega)
  -- Commands are taken back only where none wait.
  have hcomm : q.waiting ++ ((x.clients i).marks c).filterMap Mark.taken? =
      ((x.clients i).marks c).filterMap Mark.taken? ++ q.waiting := by
    rcases Nat.eq_zero_or_pos n with hzero | hn
    · rw [hx.closed hzero, List.append_nil, List.nil_append]
    · rw [(hstep.served hn (hserved hn i)).2, List.append_nil, List.nil_append]
  refine ⟨{ q with waiting := q.waiting ++ ks }, hks.queue, ?_, ?_, ?_, hx.running, ?_⟩
  · intro hzero
    rw [hx.closed hzero, hks.closed hzero, List.append_nil]
  · calc
      (x.afterClient i c y).log.filterMap Mark.accepted?
        = x.log.filterMap Mark.taken? ++ (q.waiting ++ ((x.clients i).sent ++
            ((x.clients i).marks c).filterMap Mark.accepted?)) := by
          rw [hlog, List.filterMap_append, hx.accepted, hsent]
          simp only [List.append_assoc]
      _ = x.log.filterMap Mark.taken? ++ (((x.clients i).marks c).filterMap Mark.taken? ++
            (q.waiting ++ (ks ++ c.sent))) := by
          rw [hks.accepted, ← List.append_assoc q.waiting, hcomm, List.append_assoc]
      _ = (x.afterClient i c y).log.filterMap Mark.taken? ++ (q.waiting ++ ks ++
            (x.afterClient i c y).ofClient ClientStage.sent) := by
          rw [hlog, List.filterMap_append, hsent']
          simp only [List.append_assoc]
  · rw [hlog, List.filterMap_append, List.filterMap_append, hx.announced, hannouncing, hannouncing',
      List.filter_append, List.append_assoc, List.append_assoc, hks.announced]
  · have hcount := hks.pending
    rw [hsent']
    change y.pending = (q.waiting ++ ks).length + q.running.length + c.sent.length
    rw [List.length_append]
    omega

theorem Accounted.afterWorker (hnothing : h.IssuesNothing s) (hx : x.Accounted s n q)
    (hguarded : x.Guarded) {i : Nat} (hi : i < n) {c : WorkerStage} {y : Shared σ}
    (hstep : WorkerStep h s i (x.workers i) x.toShared c y) :
    ∃ q', (x.afterWorker i c y).Accounted s n q' := by
  have hclient (f : ClientStage → List Command) := hguarded.ofClient_afterWorker hstep f
  have hlog : (x.afterWorker i c y).log = x.log ++ (x.workers i).marks c := hstep.log
  have hjobs (k : Command) := count_ofWorkers_afterWorker (x := x) WorkerStage.job hi c y k
  have hjob (k : Command) : (x.workers i).job.count k ≤ q.running.count k := by
    have hothers := count_ofWorkers_afterWorker (x := x) WorkerStage.job hi .away y k
    have hrunning := hx.running.count_eq k
    change _ = _ + 0 at hothers
    omega
  have hpending := hx.pending
  obtain ⟨q', hq'⟩ := hstep.account hnothing hx.queue hjob (by omega)
  refine ⟨q', hq'.queue, ?_, ?_, ?_, ?_, ?_⟩
  · intro hzero
    omega
  · rw [hlog, List.filterMap_append, List.filterMap_append, hq'.accepted, hx.accepted, hclient,
      hq'.taken]
    simp only [List.append_assoc, List.append_nil]
  · rw [hlog, List.filterMap_append, List.filterMap_append, hq'.accepted, hq'.announced, hclient,
      List.append_nil, List.append_nil]
    exact hx.announced
  · rw [List.perm_iff_count]
    intro k
    have hrunning := hx.running.count_eq k
    have hrunning' := hq'.running k
    have := hjobs k
    omega
  · have hcount := hq'.pending
    change y.pending = _
    rw [hclient]
    omega

theorem Accounted.step (hnothing : h.IssuesNothing s) (hx : x.Accounted s n q)
    (hguarded : x.Guarded) (hserved : x.Served n) (hstep : Crew.Step h s n x x') :
    ∃ q', x'.Accounted s n q' := by
  cases hstep with
  | client i c y hstep => exact hx.afterClient hnothing hguarded hserved hstep
  | worker i hi c y hstep => exact hx.afterWorker hnothing hguarded hi hstep
  | findIdle =>
      refine ⟨q, hx.queue, hx.closed, ?_, ?_, hx.running, hx.pending⟩
      · rw [Mark.filterMap_foundIdle _ rfl, Mark.filterMap_foundIdle _ rfl]
        exact hx.accepted
      · rw [Mark.filterMap_foundIdle _ rfl, Mark.filterMap_foundIdle _ rfl]
        exact hx.announced
  | other w hqueue =>
      exact ⟨q, hqueue.trans hx.queue, hx.closed, hx.accepted, hx.announced, hx.running, hx.pending⟩

end Crew

end DebugSession
