import DebugSession.Proofs.Lock

namespace DebugSession

def ClientStage.marks : ClientStage → ClientStage → List Mark
  | inside k, admitted _ => k.announcement
  | admitted k, sending _ => [.accepted k]
  | sending k, handedBack _ => [.taken k]
  | handedBack k, working _ => [.begun k]
  | working k, leaving => [.ended k, .finished k]
  | _, _ => []

def WorkerStage.marks : WorkerStage → WorkerStage → List Mark
  | away, holding k => [.taken k]
  | holding k, working _ => [.begun k]
  | working k, worked _ _ => [.ended k]
  | reported k, away => [.finished k]
  | _, _ => []

theorem ClientStep.log {σ : Type} {h : Host σ} {s : SessionId} {n i : Nat} {c d : ClientStage}
    {x y : Shared σ} (hstep : ClientStep h s n i c x d y) : y.log = x.log ++ c.marks d := by
  cases hstep with
  | takeIn | count | handBack | begin | work => rfl
  | _ => exact (List.append_nil _).symm

theorem WorkerStep.log {σ : Type} {h : Host σ} {s : SessionId} {i : Nat} {c d : WorkerStage}
    {x y : Shared σ} (hstep : WorkerStep h s i c x d y) : y.log = x.log ++ c.marks d := by
  cases hstep with
  | report => exact (List.append_nil _).symm
  | _ => rfl

theorem Command.filterMap_announcement {p : Mark → Option Command} (k : Command)
    (hp : p (.announced k) = none) : k.announcement.filterMap p = [] := by
  unfold announcement
  split
  · rw [List.filterMap_cons_none hp, List.filterMap_nil]
  · rfl

/-- What every command comes to once it is taken. -/
inductive Milestone
  | begun
  | ended
  | finished

namespace Milestone

def mark? : Milestone → Mark → Option Command
  | begun => Mark.begun?
  | ended => Mark.ended?
  | finished => Mark.finished?

def client : Milestone → ClientStage → List Command
  | begun => ClientStage.ahead
  | ended | finished => ClientStage.job

def worker : Milestone → WorkerStage → List Command
  | begun => WorkerStage.ahead
  | ended => WorkerStage.unended
  | finished => WorkerStage.job

variable {σ : Type} {h : Host σ} {s : SessionId} {n i : Nat} {x y : Shared σ} (m : Milestone)

theorem client_away : m.client .away = [] := by cases m <;> rfl

theorem client_of_job {c : ClientStage} (hc : c.job = []) : m.client c = [] := by
  cases c with
  | handedBack | working => cases hc
  | _ => cases m <;> rfl

theorem worker_of_job {c : WorkerStage} (hc : c.job = []) : m.worker c = [] := by
  cases c with
  | away => cases m <;> rfl
  | _ => cases hc

theorem client_step {c d : ClientStage} (hstep : ClientStep h s n i c x d y) :
    m.client c ++ (c.marks d).filterMap Mark.taken? = (c.marks d).filterMap m.mark? ++ m.client d := by
  cases hstep with
  | takeIn k =>
      have hmark : m.mark? (.announced k) = none := by cases m <;> rfl
      have htaken : k.announcement.filterMap Mark.taken? = [] := k.filterMap_announcement rfl
      simp only [ClientStage.marks, k.filterMap_announcement hmark, htaken]
      cases m <;> rfl
  | _ => cases m <;> rfl

theorem worker_step {c d : WorkerStage} (hstep : WorkerStep h s i c x d y) :
    m.worker c ++ (c.marks d).filterMap Mark.taken? = (c.marks d).filterMap m.mark? ++ m.worker d := by
  cases hstep <;> cases m <;> rfl

end Milestone

/-- Where there are workers, clients take nothing back. -/
theorem ClientStep.served {σ : Type} {h : Host σ} {s : SessionId} {n i : Nat} {c d : ClientStage}
    {x y : Shared σ} (hstep : ClientStep h s n i c x d y) (hn : 0 < n) (hc : c.job = []) :
    d.job = [] ∧ (c.marks d).filterMap Mark.taken? = [] := by
  cases hstep with
  | takeIn k => exact ⟨rfl, k.filterMap_announcement rfl⟩
  | handBack _ _ hzero => omega
  | begin | work => cases hc
  | _ => exact ⟨rfl, rfl⟩

namespace Crew

variable {σ : Type} {h : Host σ} {s : SessionId} {n : Nat} {x x' : Crew σ}

def Served (n : Nat) (x : Crew σ) : Prop := 0 < n → ∀ i, (x.clients i).job = []

theorem Served.step (hx : x.Served n) (hstep : Crew.Step h s n x x') : x'.Served n := by
  intro hn j
  cases hstep with
  | client i c y hstep =>
      by_cases hji : j = i
      · subst hji
        rw [clients_afterClient_self]
        exact (hstep.served hn (hx hn j)).1
      · rw [clients_afterClient_of_ne x y c hji]
        exact hx hn j
  | _ => exact hx hn j

/-- All commands that are taken have come to a milestone, but for those in hand before it. With one
worker they come there one after the other. -/
structure Reached (n : Nat) (m : Milestone) (x : Crew σ) : Prop where
  all : (x.log.filterMap Mark.taken?).Perm
    (x.log.filterMap m.mark? ++ (x.ofClient m.client ++ x.ofWorkers m.worker n))
  inTurn : n ≤ 1 → x.log.filterMap Mark.taken? =
    x.log.filterMap m.mark? ++ (x.ofClient m.client ++ x.ofWorkers m.worker n)

theorem Served.ofClient (hx : x.Served n) (hn : 0 < n) (m : Milestone) : x.ofClient m.client = [] := by
  unfold Crew.ofClient
  split
  · exact m.client_of_job (hx hn _)
  · rfl

theorem Reached.of_eq {m : Milestone} (hx : x.Reached n m)
    (htaken : x'.log.filterMap Mark.taken? = x.log.filterMap Mark.taken?)
    (hmark : x'.log.filterMap m.mark? = x.log.filterMap m.mark?)
    (hclient : x'.ofClient m.client = x.ofClient m.client)
    (hworkers : x'.ofWorkers m.worker n = x.ofWorkers m.worker n) : x'.Reached n m := by
  constructor
  · rw [htaken, hmark, hclient, hworkers]
    exact hx.all
  · rw [htaken, hmark, hclient, hworkers]
    exact hx.inTurn

theorem Reached.afterClient {m : Milestone} (hx : x.Reached n m) (hguarded : x.Guarded)
    (hserved : x.Served n) {i : Nat} {c : ClientStage} {y : Shared σ}
    (hstep : ClientStep h s n i (x.clients i) x.toShared c y) :
    (x.afterClient i c y).Reached n m := by
  have hmarks := m.client_step hstep
  have hlog : (x.afterClient i c y).log = x.log ++ (x.clients i).marks c := hstep.log
  have hworkers : (x.afterClient i c y).ofWorkers m.worker n = x.ofWorkers m.worker n := rfl
  have hbefore := hguarded.ofClient_before hstep m.client_away
  have hafter := hguarded.ofClient_afterClient hstep m.client_away
  rcases Nat.eq_zero_or_pos n with rfl | hn
  · have hturn := hx.inTurn (Nat.zero_le 1)
    have hnone : x.ofWorkers m.worker 0 = [] := rfl
    have hturn' : (x.afterClient i c y).log.filterMap Mark.taken? =
        (x.afterClient i c y).log.filterMap m.mark? ++
          ((x.afterClient i c y).ofClient m.client ++
            (x.afterClient i c y).ofWorkers m.worker 0) := by
      rw [hbefore, hnone, List.append_nil] at hturn
      rw [hworkers, hnone, hafter, hlog, List.filterMap_append, List.filterMap_append, hturn]
      simp only [List.append_assoc, List.append_nil, hmarks]
    exact ⟨.of_eq hturn', fun _ => hturn'⟩
  · obtain ⟨hjob, htaken⟩ := hstep.served hn (hserved hn i)
    have hnothing := m.client_of_job (hserved hn i)
    have hnothing' := m.client_of_job hjob
    rw [hnothing, htaken, hnothing', List.append_nil, List.append_nil] at hmarks
    refine hx.of_eq ?_ ?_ ?_ hworkers
    · rw [hlog, List.filterMap_append, htaken, List.append_nil]
    · rw [hlog, List.filterMap_append, ← hmarks, List.append_nil]
    · rw [hafter, hnothing', hbefore, hnothing]

theorem Reached.afterWorker {m : Milestone} (hx : x.Reached n m) (hguarded : x.Guarded)
    (hserved : x.Served n) {i : Nat} (hi : i < n) {c : WorkerStage} {y : Shared σ}
    (hstep : WorkerStep h s i (x.workers i) x.toShared c y) :
    (x.afterWorker i c y).Reached n m := by
  have hn : 0 < n := Nat.zero_lt_of_lt hi
  have hmarks := m.worker_step hstep
  have hlog : (x.afterWorker i c y).log = x.log ++ (x.workers i).marks c := hstep.log
  have hclient := hserved.ofClient hn m
  have hclient' : (x.afterWorker i c y).ofClient m.client = [] :=
    (hguarded.ofClient_afterWorker hstep m.client).trans hclient
  constructor
  · rw [List.perm_iff_count]
    intro k
    have hall := hx.all.count_eq k
    have hcount := count_ofWorkers_afterWorker (x := x) m.worker hi c y k
    have hmarks' := congrArg (List.count k) hmarks
    rw [hclient] at hall
    rw [hclient', hlog]
    simp only [List.filterMap_append, List.count_append, List.nil_append] at hall hmarks' ⊢
    omega
  · intro hone
    have hturn := hx.inTurn hone
    rw [hclient, ofWorkers_of_single m.worker hi hone] at hturn
    rw [hclient', hlog, ofWorkers_of_single m.worker hi hone, workers_afterWorker_self]
    simp only [List.filterMap_append, List.nil_append, hturn, List.append_assoc, hmarks]

theorem Reached.step {m : Milestone} (hx : x.Reached n m) (hguarded : x.Guarded)
    (hserved : x.Served n) (hstep : Crew.Step h s n x x') : x'.Reached n m := by
  cases hstep with
  | client i c y hstep => exact hx.afterClient hguarded hserved hstep
  | worker i hi c y hstep => exact hx.afterWorker hguarded hserved hi hstep
  | findIdle hpending =>
      have hmark : m.mark? .foundIdle = none := by cases m <;> rfl
      exact hx.of_eq (Mark.filterMap_foundIdle _ rfl) (Mark.filterMap_foundIdle _ hmark) rfl rfl
  | other => exact ⟨hx.all, hx.inTurn⟩

end Crew

end DebugSession
