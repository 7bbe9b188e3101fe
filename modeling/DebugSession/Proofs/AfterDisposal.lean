import DebugSession.Proofs.HostBehavior
import DebugSession.Proofs.Recall
import Mathlib.Tactic.Tauto

namespace DebugSession

namespace Session

def Closing (x : Session) : Prop :=
  x.config.dispatch = .worker ∧ .dispose ∈ x.queue.waiting ++ x.queue.running

def Over (x : Session) : Prop := x.lifecycle.disposed = true ∨ x.Closing

structure Lasts (x y : Session) : Prop where
  disposed : x.lifecycle.disposed = true → y.lifecycle.disposed = true
  stays : x.Over → y.Over

theorem Lasts.of_eq {x y : Session} (hdispatch : y.config.dispatch = x.config.dispatch)
    (hdisposed : x.lifecycle.disposed = true → y.lifecycle.disposed = true)
    (hqueue : y.queue = x.queue) : Lasts x y := by
  refine ⟨hdisposed, Or.imp hdisposed ?_⟩
  simp only [Closing, hdispatch, hqueue, imp_self]

theorem Lasts.refl (x : Session) : Lasts x x := ⟨id, id⟩

theorem Lasts.accept (x : Session) (k : Command) :
    Lasts x { x with queue := x.queue.accept k } := by
  refine ⟨id, Or.imp_right fun hx => ⟨hx.1, ?_⟩⟩
  have hmem := hx.2
  simp only [CommandQueue.accept, List.mem_append] at hmem ⊢
  tauto

theorem Lasts.take {x : Session} {k : Command} {q : CommandQueue}
    (hq : x.queue.take? = some (k, q)) : Lasts x { x with queue := q } := by
  obtain ⟨hwaiting, hrunning⟩ := CommandQueue.take?_eq_some hq
  refine ⟨id, Or.imp_right fun hx => ⟨hx.1, ?_⟩⟩
  have hmem := hx.2
  simp only [hwaiting, hrunning, List.mem_append, List.mem_cons] at hmem ⊢
  tauto

theorem Lasts.finish {x : Session} {k : Command}
    (hx : k = .dispose → x.lifecycle.disposed = true) :
    Lasts x { x with queue := x.queue.finish k } := by
  refine ⟨id, ?_⟩
  rintro (hdisposed | ⟨hdispatch, hmem⟩)
  · exact .inl hdisposed
  · by_cases hk : k = .dispose
    · exact .inl (hx hk)
    · refine .inr ⟨hdispatch, ?_⟩
      simp only [CommandQueue.finish, List.mem_append] at hmem ⊢
      rw [List.mem_erase_of_ne (Ne.symm hk)]
      exact hmem

end Session

theorem Lifecycle.disposed_after {l : Lifecycle} (hl : l.disposed = true) (t : Transition) :
    (l.after t).disposed = true := by
  cases t with
  | reported kind =>
      simp only [after, reported]
      repeat' split
      all_goals exact hl
  | _ => simp only [after, hl]

def DisposeReturned (s : SessionId) (log : List Line) : Prop :=
  ∃ x, .returned s .dispose (.ok (.ok ())) x ∈ log

/-- The issue of a command came to nothing: it returned before anything else was written, and left
the session as it was. -/
def Quiet (s : SessionId) (k : Command) (x : Session) (later : List Line) : Prop :=
  ∃ r, later.head? = some (.returned s k r x)

/-- What comes of a command that is issued when the disposal has returned. A command that fails its
check comes to nothing in any case. -/
def AfterDisposal (s : SessionId) (k : Command) (x : Session) (later : List Line) : Prop :=
  x.lifecycle.disposed = true ∧ Quiet s k x later ∨
    x.lifecycle.disposed = false ∧ x.Closing ∧ (k.check = .ok () → ¬ Quiet s k x later)

def Final (n : Nat) (log : List Line) : Prop :=
  ∀ past s k x later, log = past ++ .issued s k x :: later → s.index < n →
    k.needsLiveSession = true → DisposeReturned s past → AfterDisposal s k x later

def Opens (ls : List Line) : Prop := ∀ s k r x, ls.head? ≠ some (.returned s k r x)

structure Whole (ls : List Line) : Prop where
  opens : Opens ls
  closes : ∀ s k x, ls.getLast? ≠ some (.issued s k x)

theorem Whole.nil : Whole [] :=
  ⟨fun _ _ _ _ hhead => Option.some_ne_none _ hhead.symm,
    fun _ _ _ hlast => Option.some_ne_none _ hlast.symm⟩

theorem Opens.append {ls ms : List Line} (hls : Opens ls) (hms : Opens ms) : Opens (ls ++ ms) := by
  intro s k r x hhead
  cases ls with
  | nil => exact hms s k r x hhead
  | cons l rest => exact hls s k r x hhead

theorem Whole.append {ls ms : List Line} (hls : Whole ls) (hms : Whole ms) : Whole (ls ++ ms) := by
  refine ⟨hls.opens.append hms.opens, fun s k x hlast => ?_⟩
  rw [List.getLast?_append] at hlast
  cases hms' : ms.getLast? with
  | none =>
      rw [hms'] at hlast
      exact hls.closes s k x hlast
  | some l =>
      rw [hms'] at hlast
      exact hms.closes s k x (hms'.trans hlast)

theorem AfterDisposal.append {s : SessionId} {k : Command} {x : Session} {later more : List Line}
    (hlater : AfterDisposal s k x later) (hmore : later = [] → Opens more) :
    AfterDisposal s k x (later ++ more) := by
  cases later with
  | nil =>
      refine .inr ?_
      rcases hlater with ⟨-, r, hr⟩ | ⟨hx, hclosing, -⟩
      · cases hr
      · refine ⟨hx, hclosing, ?_⟩
        rintro - ⟨r, hr⟩
        exact hmore rfl s k r x hr
  | cons l rest => exact hlater

theorem DisposeReturned.append {s : SessionId} {log ls : List Line}
    (hlog : DisposeReturned s (log ++ ls)) :
    DisposeReturned s log ∨ ∃ x, .returned s .dispose (.ok (.ok ())) x ∈ ls := by
  obtain ⟨x, hx⟩ := hlog
  exact (List.mem_append.mp hx).imp (⟨x, ·⟩) (⟨x, ·⟩)

theorem Final.append {n : Nat} {log ls : List Line} (hlog : Final n log) (hls : Opens ls)
    (hnew : ∀ past s k x later, ls = past ++ .issued s k x :: later → s.index < n →
      k.needsLiveSession = true → DisposeReturned s (log ++ past) → AfterDisposal s k x later) :
    Final n (log ++ ls) := by
  intro past s k x later heq hs hk hreturned
  rcases List.append_eq_append_iff.mp heq with ⟨past', rfl, hls'⟩ | ⟨later', rfl, hlater'⟩
  · exact hnew past' s k x later hls' hs hk hreturned
  · cases later' with
    | nil =>
        rw [List.append_nil] at hlog
        refine hnew [] s k x later hlater'.symm hs hk ?_
        rw [List.append_nil, List.append_nil]
        exact hreturned
    | cons l rest =>
        obtain ⟨rfl, rfl⟩ := List.cons.inj hlater'
        exact (hlog past s k x rest rfl hs hk hreturned).append fun _ => hls

/-- An issue that returns is judged by what was written between. -/
theorem Final.close {n : Nat} {log ls : List Line} {s : SessionId} {k : Command} {x y : Session}
    {r : Except Panic (Except SessionError Unit)} (hlog : Final n log) (hls : Whole ls)
    (hinner : ∀ past s' k' x' later, ls = past ++ .issued s' k' x' :: later → s'.index < n →
      k'.needsLiveSession = true → DisposeReturned s' (log ++ .issued s k x :: past) →
      AfterDisposal s' k' x' later)
    (houter : s.index < n → k.needsLiveSession = true → DisposeReturned s log →
      AfterDisposal s k x (ls ++ [.returned s k r y])) :
    Final n (log ++ .issued s k x :: (ls ++ [.returned s k r y])) := by
  refine hlog.append (fun _ _ _ _ hhead => by cases hhead) ?_
  intro past s' k' x' later heq hs hk hreturned
  cases past with
  | nil =>
      obtain ⟨hline, rfl⟩ := List.cons.inj heq
      cases hline
      rw [List.append_nil] at hreturned
      exact houter hs hk hreturned
  | cons l past =>
      obtain ⟨rfl, hrest⟩ := List.cons.inj heq
      rcases append_singleton_eq hrest with ⟨-, hline, -⟩ | ⟨later, rfl, rfl⟩
      · cases hline
      · refine (hinner past s' k' x' later rfl hs hk hreturned).append ?_
        rintro rfl
        exact absurd List.getLast?_concat (hls.closes s' k' x')

end DebugSession
