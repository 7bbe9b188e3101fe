import DebugSession.Proofs.Dispatch
import DebugSession.Proofs.Recall
import DebugSession.Proofs.PendingCommands

namespace DebugSession

/-- What must have been before a mark can be made: a command that lets the target run is announced
before its body begins, and commands are left to nobody when someone finds that there are none. -/
def Mark.Due (n : Nat) (past : List Mark) : Mark → Prop
  | begun k => k.resumes = true →
      (past.filterMap begun?).count k < (past.filterMap announced?).count k
  | foundIdle => 0 < n → (past.filterMap accepted?).Perm (past.filterMap ended?)
  | _ => True

def Timely (n : Nat) (log : List Mark) : Prop :=
  ∀ past m later, log = past ++ m :: later → m.Due n past

theorem Timely.concat {n : Nat} {log : List Mark} (hlog : Timely n log) {m : Mark}
    (hm : m.Due n log) : Timely n (log ++ [m]) := by
  intro past m' later heq
  rcases append_singleton_eq heq with ⟨rfl, rfl, -⟩ | ⟨rest, -, hlog'⟩
  · exact hm
  · exact hlog past m' rest hlog'

theorem Timely.append {n : Nat} {log ms : List Mark} (hlog : Timely n log)
    (hms : ∀ m ∈ ms, ∀ past, m.Due n past) : Timely n (log ++ ms) := by
  induction ms generalizing log with
  | nil =>
      rw [List.append_nil]
      exact hlog
  | cons m rest ih =>
      rw [List.append_cons]
      refine ih (hlog.concat (hms m List.mem_cons_self log)) fun m' hm' => ?_
      exact hms m' (List.mem_cons_of_mem m hm')

/-- All marks of a client but the beginning of a body need nothing before them. -/
theorem ClientStage.marks_due (n : Nat) (c d : ClientStage) :
    (∀ m ∈ c.marks d, ∀ past, m.Due n past) ∨ ∃ k, c.ahead = [k] ∧ c.marks d = [.begun k] := by
  unfold marks
  split
  · left
    intro m hm
    unfold Command.announcement at hm
    split at hm
    · rw [List.mem_singleton.mp hm]
      exact fun _ => trivial
    · cases hm
  · exact .inl (by simp [Mark.Due])
  · exact .inl (by simp [Mark.Due])
  · exact .inr ⟨_, rfl, rfl⟩
  · exact .inl (by simp [Mark.Due])
  · exact .inl (by simp)

theorem WorkerStage.marks_due (n : Nat) (c d : WorkerStage) :
    (∀ m ∈ c.marks d, ∀ past, m.Due n past) ∨ ∃ k, c.ahead = [k] ∧ c.marks d = [.begun k] := by
  unfold marks
  split
  · exact .inl (by simp [Mark.Due])
  · exact .inr ⟨_, rfl, rfl⟩
  · exact .inl (by simp [Mark.Due])
  · exact .inl (by simp [Mark.Due])
  · exact .inl (by simp)

namespace Crew

variable {σ : Type} {h : Host σ} {s : SessionId} {n : Nat} {x x' : Crew σ} {q : CommandQueue}

/-- A command that is taken and whose body has not begun is announced. -/
theorem Accounted.due_begun (hx : x.Accounted s n q) (hbegun : x.Reached n .begun) {k : Command}
    (hk : k ∈ x.ofClient ClientStage.ahead ++ x.ofWorkers WorkerStage.ahead n) :
    (Mark.begun k).Due n x.log := by
  intro hresumes
  have htaken := hbegun.all.count_eq k
  have haccepted := congrArg (List.count k) hx.accepted
  have hannounced := congrArg (List.count k) hx.announced
  have hpos := List.count_pos_iff.mpr hk
  have hfilter := List.count_filter (l := x.log.filterMap Mark.accepted?) (a := k)
    (p := (·.resumes)) hresumes
  simp only [List.count_append, Milestone.mark?, Milestone.client, Milestone.worker] at *
  omega

/-- Nothing is pending only when all bodies have ended. -/
theorem Accounted.due_foundIdle (hx : x.Accounted s n q) (hserved : x.Served n)
    (hended : x.Reached n .ended) (hpending : x.pending = 0) : Mark.foundIdle.Due n x.log := by
  intro hn
  have hcount := hx.pending
  rw [hpending] at hcount
  have hwaiting : q.waiting = [] := List.length_eq_zero_iff.mp (by omega)
  have hsent : x.ofClient ClientStage.sent = [] := List.length_eq_zero_iff.mp (by omega)
  have hjobs : x.ofWorkers WorkerStage.job n = [] := by
    have hrunning := hx.running.length_eq
    exact List.length_eq_zero_iff.mp (by omega)
  have hworkers : x.ofWorkers Milestone.ended.worker n = [] :=
    ofWorkers_eq_nil.mpr fun i hi => Milestone.ended.worker_of_job (ofWorkers_eq_nil.mp hjobs i hi)
  have hall := hended.all
  rw [hserved.ofClient hn, hworkers, List.append_nil, List.append_nil] at hall
  have haccepted := hx.accepted
  rw [hwaiting, hsent, List.append_nil, List.append_nil] at haccepted
  rw [haccepted]
  exact hall

structure Sound (s : SessionId) (n : Nat) (x : Crew σ) : Prop where
  guarded : x.Guarded
  served : x.Served n
  hired : ∀ i, n ≤ i → x.workers i = .away
  reached : ∀ m, x.Reached n m
  accounted : ∃ q, x.Accounted s n q
  timely : Timely n x.log

theorem Sound.step (hnothing : h.IssuesNothing s) (hx : x.Sound s n)
    (hstep : Crew.Step h s n x x') : x'.Sound s n := by
  obtain ⟨q, haccounted⟩ := hx.accounted
  refine ⟨hx.guarded.step hstep, hx.served.step hstep, ?_,
    fun m => (hx.reached m).step hx.guarded hx.served hstep,
    haccounted.step hnothing hx.guarded hx.served hstep, ?_⟩
  · intro j hj
    cases hstep with
    | worker i hi c y hstep =>
        rw [workers_afterWorker_of_ne x y c (by omega)]
        exact hx.hired j hj
    | _ => exact hx.hired j hj
  cases hstep with
  | client i c y hstep =>
      have hlog : (x.afterClient i c y).log = x.log ++ (x.clients i).marks c := hstep.log
      rw [hlog]
      rcases ClientStage.marks_due n (x.clients i) c with hdue | ⟨k, hahead, hmarks⟩
      · exact hx.timely.append hdue
      · rw [hmarks]
        refine hx.timely.concat (haccounted.due_begun (hx.reached .begun) ?_)
        rw [hx.guarded.ofClient_before hstep rfl, hahead]
        exact List.mem_append_left _ List.mem_cons_self
  | worker i hi c y hstep =>
      have hlog : (x.afterWorker i c y).log = x.log ++ (x.workers i).marks c := hstep.log
      rw [hlog]
      rcases WorkerStage.marks_due n (x.workers i) c with hdue | ⟨k, hahead, hmarks⟩
      · exact hx.timely.append hdue
      · rw [hmarks]
        refine hx.timely.concat (haccounted.due_begun (hx.reached .begun) ?_)
        refine List.mem_append_right _ (List.mem_flatMap.mpr ⟨i, List.mem_range.mpr hi, ?_⟩)
        rw [hahead]
        exact List.mem_cons_self
  | findIdle hpending =>
      exact hx.timely.concat (haccounted.due_foundIdle hx.served (hx.reached .ended) hpending)
  | other => exact hx.timely

theorem sound_of_world {w : World σ} (hw : w.queue? s = some {}) :
    ({ world := w } : Crew σ).Sound s n := by
  have hclient (f : ClientStage → List Command) : ({ world := w } : Crew σ).ofClient f = [] := rfl
  have hworkers {g : WorkerStage → List Command} (hg : g .away = []) :
      ({ world := w } : Crew σ).ofWorkers g n = [] := ofWorkers_eq_nil.mpr fun _ _ => hg
  refine ⟨?_, fun _ _ => rfl, fun _ _ => rfl, fun m => ?_, ⟨{}, hw, fun _ => rfl, rfl, rfl, ?_, rfl⟩, ?_⟩
  · rintro (i | i) <;> exact iff_of_false Bool.false_ne_true (Option.some_ne_none _).symm
  · have hm := hworkers (m.worker_of_job (c := .away) rfl)
    constructor
    · rw [hclient, hm]
      exact .refl _
    · intro _
      rw [hclient, hm]
      rfl
  · rw [hworkers rfl]
  · intro past m later heq
    exact absurd heq.symm (by simp)

theorem Sound.reaches (hnothing : h.IssuesNothing s) (hx : x.Sound s n)
    (hrun : Crew.Reaches h s n x x') : x'.Sound s n := by
  induction hrun with
  | refl => exact hx
  | tail _ hstep ih => exact ih.step hnothing hstep

def queued (s : SessionId) (x : Crew σ) : List Command :=
  (x.world.session s).queue.waiting ++ x.ofClient ClientStage.sent

def running (s : SessionId) (x : Crew σ) : List Command := (x.world.session s).queue.running

def InBody (x : Crew σ) : Hand → Prop
  | .client i => (x.clients i).body ≠ []
  | .worker i => (x.workers i).body ≠ []

structure Disciplined (s : SessionId) (n : Nat) (x : Crew σ) : Prop where
  single : ∀ a b, x.InBody a → x.InBody b → a = b
  complete : 0 < n → (x.log.filterMap Mark.accepted?).Perm
    (x.log.filterMap Mark.finished? ++ (x.running s ++ x.queued s))
  inOrder : n = 1 → x.log.filterMap Mark.accepted? =
    x.log.filterMap Mark.finished? ++ (x.running s ++ x.queued s)
  begunInOrder : n = 1 → x.log.filterMap Mark.finished? <+: x.log.filterMap Mark.begun? ∧
    x.log.filterMap Mark.begun? <+: x.log.filterMap Mark.accepted?
  /-- The command that was announced last may still have to be counted. -/
  announcedInOrder : x.log.filterMap Mark.announced? =
    (x.log.filterMap Mark.accepted?).filter (·.resumes) ++ x.ofClient ClientStage.announcing
  announcedFirst : ∀ past k later, x.log = past ++ .begun k :: later → k.resumes = true →
    (past.filterMap Mark.begun?).count k < (past.filterMap Mark.announced?).count k
  pending : x.pending = (x.queued s).length + (x.running s).length
  /-- Whoever is about to take one from the count finds it positive. -/
  counted : (∀ i k, x.clients i = .sending k → 0 < x.pending) ∧
    ∀ i < n, ∀ k, x.workers i = .reported k → 0 < x.pending
  idle : ∀ past later, x.log = past ++ .foundIdle :: later → 0 < n →
    (past.filterMap Mark.accepted?).Perm (past.filterMap Mark.ended?)

theorem Guarded.single (hx : x.Guarded) {a b : Hand} (ha : x.InBody a) (hb : x.InBody b) :
    a = b := by
  have hlock (a : Hand) (ha : x.InBody a) : x.lock = some a := by
    refine (hx a).mp ?_
    cases a with
    | client i =>
        simp only [InBody, hasLock] at ha ⊢
        cases hi : x.clients i <;> simp_all [ClientStage.body, ClientStage.hasLock]
    | worker i =>
        simp only [InBody, hasLock] at ha ⊢
        cases hi : x.workers i <;> simp_all [WorkerStage.body, WorkerStage.hasLock]
  exact Option.some.inj ((hlock a ha).symm.trans (hlock b hb))

/-- A single worker has at most one command in hand. -/
theorem Accounted.running_of_single (hx : x.Accounted s 1 q) : q.running = (x.workers 0).job := by
  have hperm := hx.running
  rw [ofWorkers_of_single _ Nat.zero_lt_one (Nat.le_refl 1)] at hperm
  cases hstage : x.workers 0 <;> rw [hstage] at hperm
  case away => exact hperm.eq_nil
  all_goals exact List.perm_singleton.mp hperm

theorem Sound.taken_of_single (hx : x.Sound s 1) (m : Milestone) :
    x.log.filterMap Mark.taken? = x.log.filterMap m.mark? ++ m.worker (x.workers 0) := by
  rw [(hx.reached m).inTurn (Nat.le_refl 1), hx.served.ofClient Nat.zero_lt_one,
    ofWorkers_of_single _ Nat.zero_lt_one (Nat.le_refl 1), List.nil_append]

theorem Sound.disciplined (hx : x.Sound s n) : x.Disciplined s n := by
  obtain ⟨q, haccounted⟩ := hx.accounted
  have hqueue : (x.world.session s).queue = q := World.queue_of_queue? haccounted.queue
  have hqueued : x.queued s = q.waiting ++ x.ofClient ClientStage.sent := by rw [queued, hqueue]
  have hrunning : x.running s = q.running := by rw [running, hqueue]
  have hfinished := hx.reached .finished
  constructor
  case single => exact fun a b ha hb => hx.guarded.single ha hb
  case complete =>
    intro hn
    have hall := hfinished.all
    rw [hx.served.ofClient hn, List.nil_append] at hall
    rw [hqueued, hrunning, haccounted.accepted,
      ← List.append_assoc (x.log.filterMap Mark.finished?)]
    exact (hall.trans (haccounted.running.symm.append_left _)).append_right _
  case inOrder =>
    rintro rfl
    rw [hqueued, hrunning, haccounted.accepted, haccounted.running_of_single,
      hx.taken_of_single .finished, List.append_assoc]
    rfl
  case begunInOrder =>
    rintro rfl
    have hbegun := hx.taken_of_single .begun
    constructor
    · have hboth := (hx.taken_of_single .finished).symm.trans hbegun
      cases hstage : x.workers 0 <;> rw [hstage] at hboth
      case away | holding => exact (List.append_cancel_right hboth) ▸ List.prefix_refl _
      all_goals exact ⟨_, hboth.trans (List.append_nil _)⟩
    · rw [haccounted.accepted, hbegun, List.append_assoc]
      exact List.prefix_append _ _
  case announcedInOrder => exact haccounted.announced
  case announcedFirst => exact fun past k later heq => hx.timely past (.begun k) later heq
  case pending =>
    rw [hqueued, hrunning, List.length_append, haccounted.pending]
    omega
  case counted =>
    constructor
    · intro i k hsending
      have hlock := (hx.guarded (.client i)).mp (by simp only [hasLock, hsending, ClientStage.hasLock])
      rw [haccounted.pending, ofClient_of_lock _ hlock, hsending]
      exact Nat.succ_pos _
    · intro i hi k hreported
      have hmem : k ∈ q.running := by
        rw [haccounted.running.mem_iff]
        refine List.mem_flatMap.mpr ⟨i, List.mem_range.mpr hi, ?_⟩
        rw [hreported]
        exact List.mem_cons_self
      have hpos := List.length_pos_of_mem hmem
      rw [haccounted.pending]
      omega
  case idle => exact fun past later heq => hx.timely past .foundIdle later heq

theorem Reaches.client_away (hn : 0 < n) {i : Nat} {c : ClientStage} {y : Shared σ}
    (hrun : Reaches h s n x (x.afterClient i c y)) (hc : c.hasLock = true) :
    ∃ z : Shared σ, z.lock = none ∧ Reaches h s n x (x.afterClient i .away z) := by
  have leaving {y : Shared σ} (hrun : Reaches h s n x (x.afterClient i .leaving y)) :
      ∃ z : Shared σ, z.lock = none ∧ Reaches h s n x (x.afterClient i .away z) :=
    ⟨_, rfl, hrun.client (.leave y)⟩
  cases c with
  | away => cases hc
  | inside k =>
      rcases htake : Act.run (s.takeIn h k) (s.inside (.caller i)) y.world with ⟨r, w⟩
      by_cases hr : r = .ok true
      · subst hr
        exact leaving (((hrun.client (.takeIn k y w htake)).client (.count k _)).client (.send k _ hn))
      · exact leaving (hrun.client (.turnAway k y r w hr htake))
  | admitted k => exact leaving ((hrun.client (.count k y)).client (.send k _ hn))
  | sending k => exact leaving (hrun.client (.send k y hn))
  | handedBack k => exact leaving ((hrun.client (.begin k y)).client (.work k _))
  | working k => exact leaving (hrun.client (.work k y))
  | leaving => exact leaving hrun

/-- A worker with a command finishes it once the lock is free. -/
theorem Reaches.worker_away {i : Nat} (hi : i < n) {c : WorkerStage} {y : Shared σ}
    (hrun : Reaches h s n x (x.afterWorker i c y)) (hc : c.job ≠ []) (hlock : c.hasLock = false)
    (hfree : y.lock = none) :
    ∃ z : Shared σ, z.lock = none ∧ z.pending = y.pending - 1 ∧
      Reaches h s n x (x.afterWorker i .away z) := by
  cases c with
  | away => exact absurd rfl hc
  | holding k =>
      exact ⟨_, rfl, rfl, ((((hrun.worker hi (.begin k y hfree)).worker hi
        (.carryOut k _ _ _ rfl)).worker hi (.report k _ _)).worker hi (.finish k _))⟩
  | working k => cases hlock
  | worked k r =>
      refine ⟨_, ?_, ?_, (hrun.worker hi (.report k y r)).worker hi (.finish k _)⟩
      · exact hfree
      · rfl
  | reported k =>
      refine ⟨_, ?_, ?_, hrun.worker hi (.finish k y)⟩
      · exact hfree
      · rfl

theorem Sound.frees (hx : x.Sound s n) (hn : 0 < n) :
    ∃ x', Reaches h s n x x' ∧ x'.lock = none := by
  match hlock : x.lock with
  | none => exact ⟨x, .refl, hlock⟩
  | some (.client i) =>
      have hstart : Reaches h s n x (x.afterClient i (x.clients i) x.toShared) := by
        rw [afterClient_self]
        exact .refl
      obtain ⟨z, hz, hrun⟩ := hstart.client_away hn ((hx.guarded (.client i)).mpr hlock)
      exact ⟨_, hrun, hz⟩
  | some (.worker i) =>
      have hstart : Reaches h s n x (x.afterWorker i (x.workers i) x.toShared) := by
        rw [afterWorker_self]
        exact .refl
      have hheld := (hx.guarded (.worker i)).mpr hlock
      simp only [hasLock] at hheld
      have hi : i < n := by
        by_contra hni
        rw [hx.hired i (by omega)] at hheld
        cases hheld
      cases hstage : x.workers i with
      | working k =>
          rw [hstage] at hstart
          exact ⟨_, hstart.worker hi (.carryOut k _ _ _ rfl), rfl⟩
      | _ =>
          rw [hstage] at hheld
          cases hheld

/-- While the lock is free and something is pending, one more command can be finished. -/
theorem Sound.advances (hx : x.Sound s n) (hn : 0 < n) (hfree : x.lock = none)
    (hpending : 0 < x.pending) :
    ∃ x', Reaches h s n x x' ∧ x'.lock = none ∧ x'.pending = x.pending - 1 := by
  obtain ⟨q, haccounted⟩ := hx.accounted
  have hunlocked (i : Nat) : (x.workers i).hasLock = false := by
    by_contra hheld
    have hlock := (hx.guarded (.worker i)).mp ((Bool.not_eq_false _).mp hheld)
    rw [hfree] at hlock
    cases hlock
  by_cases hbusy : ∃ i < n, (x.workers i).job ≠ []
  · obtain ⟨i, hi, hjob⟩ := hbusy
    have hstart : Reaches h s n x (x.afterWorker i (x.workers i) x.toShared) := by
      rw [afterWorker_self]
      exact .refl
    obtain ⟨z, hz, hcount, hrun⟩ := hstart.worker_away hi hjob (hunlocked i) hfree
    exact ⟨_, hrun, hz, hcount⟩
  · have haway : x.workers 0 = .away := by
      have hjob : (x.workers 0).job = [] := by
        by_contra hjob
        exact hbusy ⟨0, hn, hjob⟩
      cases hstage : x.workers 0 with
      | away => rfl
      | _ =>
          rw [hstage] at hjob
          cases hjob
    have hnone : x.ofWorkers WorkerStage.job n = [] :=
      ofWorkers_eq_nil.mpr fun i hi => by_contra fun hjob => hbusy ⟨i, hi, hjob⟩
    have hrunning : q.running = [] := by
      have hperm := haccounted.running
      rw [hnone] at hperm
      exact hperm.eq_nil
    have hcount := haccounted.pending
    rw [hrunning, ofClient_of_free _ hfree] at hcount
    cases hwaiting : q.waiting with
    | nil =>
        rw [hwaiting] at hcount
        exact absurd hcount (Nat.ne_of_gt hpending)
    | cons k rest =>
        have htake : (x.world.session s).queue.take? = some (k, ⟨rest, q.running ++ [k]⟩) := by
          rw [World.queue_of_queue? haccounted.queue]
          simp only [CommandQueue.take?, hwaiting]
        have hstart : Reaches h s n x (x.afterWorker 0 .away x.toShared) := by
          rw [← haway, afterWorker_self]
          exact .refl
        obtain ⟨z, hz, hcount, hrun⟩ := (hstart.worker hn (.take k _ _ htake)).worker_away hn
          (List.cons_ne_nil k []) rfl hfree
        exact ⟨_, hrun, hz, hcount⟩

/-- From any time of a run on, all commands that are accepted can be finished. -/
theorem Sound.drains (hnothing : h.IssuesNothing s) (hx : x.Sound s n) (hn : 0 < n) :
    ∃ x', Reaches h s n x x' ∧ x'.pending = 0 := by
  obtain ⟨y, hy, hfree⟩ := hx.frees (h := h) hn
  -- On the count: while the lock is free, each round takes one command from it.
  have hdrain (m : Nat) (y : Crew σ) (hy : y.Sound s n) (hfree : y.lock = none)
      (hm : y.pending = m) : ∃ x', Reaches h s n y x' ∧ x'.pending = 0 := by
    induction m generalizing y with
    | zero => exact ⟨y, .refl, hm⟩
    | succ m ih =>
        obtain ⟨z, hz, hfree', hcount⟩ := hy.advances (h := h) hn hfree (by omega)
        obtain ⟨x', hx', hzero⟩ := ih z (hy.reaches hnothing hz) hfree' (by omega)
        exact ⟨x', hz.trans hx', hzero⟩
  obtain ⟨x', hx', hzero⟩ := hdrain y.pending y (hx.reaches hnothing hy) hfree rfl
  exact ⟨x', hy.trans hx', hzero⟩

end Crew

/-- Whatever clients and workers do, the session keeps its discipline, and all commands that it has
accepted can be finished. -/
theorem Crew.disciplined_of_reaches {σ : Type} {h : Host σ} {s : SessionId}
    (hnothing : h.IssuesNothing s) {n : Nat} {w : World σ} (hw : w.queue? s = some {}) {x : Crew σ}
    (hrun : Crew.Reaches h s n { world := w } x) :
    x.Disciplined s n ∧ (0 < n → ∃ x', Crew.Reaches h s n x x' ∧ x'.pending = 0) := by
  have hsound : x.Sound s n := (Crew.sound_of_world hw).reaches hnothing hrun
  exact ⟨hsound.disciplined, hsound.drains hnothing⟩

/-- A worker is in the body of a command while another waits, and the first was announced. -/
theorem Crew.disciplined_while_stop_waits :
    let h := Scripted.stalling.host (Simulation.host default) 3
    ∃ x, Crew.Reaches h Scripted.self 1 { world := Scripted.watched } x ∧
      x.log = [.announced .proceed, .accepted .proceed, .taken .proceed, .accepted .stop,
        .begun .proceed] ∧
      x.queued Scripted.self = [.stop] ∧ x.Disciplined Scripted.self 1 := by
  intro h
  have hnothing : h.IssuesNothing Scripted.self :=
    Scripted.stalling.issuesNothing (Simulation.host default) 3 Scripted.self
  have htake (k : Command) (w : World (Journaled Simulation.Memory)) (i : Nat)
      (hk : (Act.run (Scripted.self.takeIn h k) (Scripted.self.inside (.caller i)) w).1.toOption =
        some true) :
      Act.run (Scripted.self.takeIn h k) (Scripted.self.inside (.caller i)) w =
        (.ok true,
          (Act.run (Scripted.self.takeIn h k) (Scripted.self.inside (.caller i)) w).2) := by
    rcases hrun : Act.run (Scripted.self.takeIn h k) (Scripted.self.inside (.caller i)) w with
      ⟨p | b, w'⟩
    · rw [hrun] at hk
      cases hk
    · rw [hrun] at hk
      cases hk
      rfl
  have hstart : Crew.Reaches h Scripted.self 1 { world := Scripted.watched }
      { world := Scripted.watched } :=
    .refl
  have h1 := hstart.tail (.client 0 _ _ (.enter .proceed _ rfl rfl))
  have h2 := h1.tail (.client 0 _ _ (.takeIn .proceed _ _ (htake _ _ _ (by decide +kernel))))
  have h3 := h2.tail (.client 0 _ _ (.count .proceed _))
  have h4 := h3.tail (.client 0 _ _ (.send .proceed _ Nat.zero_lt_one))
  have h5 := h4.tail (.client 0 _ _ (.leave _))
  have h6 := h5.tail (.client 1 _ _ (.enter .stop _ rfl rfl))
  have h7 := h6.tail (.client 1 _ _ (.takeIn .stop _ _ (htake _ _ _ (by decide +kernel))))
  have h8 := h7.tail (.worker 0 Nat.zero_lt_one _ _
    (.take .proceed _ ⟨[], [.proceed]⟩ (by decide +kernel)))
  have h9 := h8.tail (.client 1 _ _ (.count .stop _))
  have h10 := h9.tail (.client 1 _ _ (.send .stop _ Nat.zero_lt_one))
  have h11 := h10.tail (.client 1 _ _ (.leave _))
  have h12 := h11.tail (.worker 0 Nat.zero_lt_one _ _ (.begin .proceed _ rfl))
  exact ⟨_, h12, rfl, by decide +kernel, (Crew.disciplined_of_reaches hnothing rfl h12).1⟩

end DebugSession
