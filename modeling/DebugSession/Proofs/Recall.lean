import DebugSession.Session.Lifecycle

namespace DebugSession

/-- What is found in a log that has grown by an entry is that entry, or was there before. -/
theorem append_singleton_eq {α : Type} {log past later : List α} {e e' : α}
    (heq : log ++ [e] = past ++ e' :: later) :
    (log = past ∧ e = e' ∧ later = []) ∨
      ∃ rest, later = rest ++ [e] ∧ log = past ++ e' :: rest := by
  rcases List.eq_nil_or_concat later with rfl | ⟨rest, last, rfl⟩
  · obtain ⟨hpast, he⟩ := List.append_inj' heq rfl
    exact .inl ⟨hpast, List.singleton_inj.mp he, rfl⟩
  · rw [List.concat_eq_append, ← List.cons_append, ← List.append_assoc] at heq
    obtain ⟨hlog, hlast⟩ := List.append_inj' heq rfl
    obtain rfl := List.singleton_inj.mp hlast
    exact .inr ⟨rest, List.concat_eq_append, hlog⟩

namespace Transition

def pauses : Transition → Bool
  | reported kind => kind.isStop
  | _ => false

def exits : Transition → Bool
  | reported kind => kind == .exited
  | _ => false

def bearsOnRunning (t : Transition) : Bool := t == .resumed || t.pauses || t.exits

def bearsOnStarted (t : Transition) : Bool := t == .initialized || t.exits

def bearsOnExited (t : Transition) : Bool := t == .resumed || t.exits

def bearsOnAttached (t : Transition) : Bool := t == .attached || t == .detached

end Transition

def latest? (p : Transition → Bool) (past : List Transition) : Option Transition :=
  (past.filter p).getLast?

section Latest

variable {p q : Transition → Bool} {past : List Transition} {t : Transition}

theorem latest?_concat : latest? p (past ++ [t]) = if p t then some t else latest? p past := by
  unfold latest?
  rw [List.filter_append]
  cases hp : p t with
  | true =>
      rw [List.filter_cons_of_pos hp, List.filter_nil, List.getLast?_concat]
      rfl
  | false =>
      rw [List.filter_cons_of_neg (by simp [hp]), List.filter_nil, List.append_nil]
      rfl

/-- What is the latest of many kinds is the latest of fewer too, if it is of one of them. -/
theorem latest?_of_imp (hlatest : latest? p past = some t) (himp : ∀ x, q x = true → p x = true)
    (ht : q t = true) : latest? q past = some t := by
  obtain ⟨before, hbefore⟩ := List.getLast?_eq_some_iff.mp hlatest
  have hfilter : past.filter q = (past.filter p).filter q := by
    rw [List.filter_filter]
    refine List.filter_congr fun x _ => ?_
    cases hx : q x with
    | true => rw [himp x hx, Bool.true_and]
    | false => rw [Bool.false_and]
  rw [latest?, hfilter, hbefore, List.filter_append, List.filter_cons_of_pos ht, List.filter_nil,
    List.getLast?_concat]

end Latest

namespace Lifecycle

structure Follows (past : List Transition) (l : Lifecycle) : Prop where
  running : l.running = true ↔ latest? Transition.bearsOnRunning past = some .resumed
  started : l.started = true ↔ latest? Transition.bearsOnStarted past = some .initialized
  exited : l.exited = true ↔ latest? Transition.bearsOnExited past = some (.reported .exited)
  attached : l.attached = true ↔ latest? Transition.bearsOnAttached past = some .attached
  disposed : l.disposed = true ↔ .disposed ∈ past

/-- The phase that a session shows, by its flags and by whether it was ever disposed of. -/
def shows (l : Lifecycle) (everDisposed : Bool) : Phase :=
  if everDisposed then .disposed
  else if l.exited && !l.running then .exited
  else if l.running && !l.started then .starting
  else if l.running then .running
  else if l.started then .stopped
  else .idle

structure ToldBy (past : List Transition) (l : Lifecycle) : Prop extends Follows past l where
  apart : ¬ (l.running = true ∧ l.exited = true)
  phase : l.phase = l.shows (past.contains .disposed)

variable {past : List Transition} {l : Lifecycle}

theorem follows_nil : Follows [] {} := by
  constructor <;> exact iff_of_false Bool.false_ne_true (by simp [latest?])

theorem running_after (l : Lifecycle) (t : Transition) :
    (l.after t).running = if t.bearsOnRunning then t == .resumed else l.running := by
  cases t with
  | reported kind => cases kind <;> rfl
  | _ => rfl

theorem started_after (l : Lifecycle) (t : Transition) :
    (l.after t).started = if t.bearsOnStarted then t == .initialized else l.started := by
  cases t with
  | reported kind => cases kind <;> rfl
  | _ => rfl

theorem exited_after (l : Lifecycle) (t : Transition) :
    (l.after t).exited = if t.bearsOnExited then t == .reported .exited else l.exited := by
  cases t with
  | reported kind => cases kind <;> rfl
  | _ => rfl

theorem attached_after (l : Lifecycle) (t : Transition) :
    (l.after t).attached = if t.bearsOnAttached then t == .attached else l.attached := by
  cases t with
  | reported kind => cases kind <;> rfl
  | _ => rfl

theorem disposed_eq_after (l : Lifecycle) (t : Transition) :
    (l.after t).disposed = (l.disposed || t == .disposed) := by
  cases t with
  | reported kind => cases kind <;> exact (Bool.or_false _).symm
  | disposed => exact (Bool.or_true _).symm
  | _ => exact (Bool.or_false _).symm

/-- A flag that some transitions set anew, one of them to true, and that the others leave alone. -/
theorem flag_after {flag : Lifecycle → Bool} {p : Transition → Bool} {cause t : Transition}
    (hafter : flag (l.after t) = if p t then t == cause else flag l)
    (hflag : flag l = true ↔ latest? p past = some cause) :
    flag (l.after t) = true ↔ latest? p (past ++ [t]) = some cause := by
  rw [hafter, latest?_concat]
  cases p t with
  | true => rw [if_pos rfl, if_pos rfl, beq_iff_eq, Option.some.injEq]
  | false => exact hflag

theorem Follows.after (h : l.Follows past) (t : Transition) : (l.after t).Follows (past ++ [t]) where
  running := flag_after (l.running_after t) h.running
  started := flag_after (l.started_after t) h.started
  exited := flag_after (l.exited_after t) h.exited
  attached := flag_after (l.attached_after t) h.attached
  disposed := by
    rw [disposed_eq_after, Bool.or_eq_true, h.disposed, beq_iff_eq, List.mem_append,
      List.mem_singleton, eq_comm]

/-- If the target runs, it was resumed after it exited. -/
theorem Follows.apart (h : l.Follows past) : ¬ (l.running = true ∧ l.exited = true) := by
  rintro ⟨hrunning, hexited⟩
  have hresumed : latest? Transition.bearsOnExited past = some .resumed := by
    refine latest?_of_imp (h.running.mp hrunning) (fun t ht => ?_) rfl
    rw [Transition.bearsOnExited, Bool.or_eq_true] at ht
    rw [Transition.bearsOnRunning]
    rcases ht with ht | ht <;> simp [ht]
  rw [h.exited.mp hexited] at hresumed
  cases hresumed

theorem Follows.told (h : l.Follows past) : l.ToldBy past := by
  refine ⟨h, h.apart, ?_⟩
  have hdisposed : past.contains .disposed = l.disposed := by
    rw [Bool.eq_iff_iff, List.contains_iff_mem, h.disposed]
  rw [hdisposed]
  cases hrunning : l.running with
  | false => simp [phase, shows, hrunning]
  | true =>
      have hexited : l.exited = false := Bool.eq_false_iff.mpr fun hx => h.apart ⟨hrunning, hx⟩
      cases hstarted : l.started <;> simp [phase, shows, hrunning, hexited, hstarted]

theorem ToldBy.phase_eq_disposed_iff (h : l.ToldBy past) : l.phase = .disposed ↔ .disposed ∈ past := by
  rw [h.phase, ← List.contains_iff_mem]
  cases past.contains .disposed with
  | true => exact iff_of_true rfl rfl
  | false =>
      refine iff_of_false ?_ Bool.false_ne_true
      unfold shows
      rw [if_neg Bool.false_ne_true]
      repeat' split
      all_goals exact fun h => nomatch h

end Lifecycle

end DebugSession
