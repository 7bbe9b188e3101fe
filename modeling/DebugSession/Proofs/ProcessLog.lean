import DebugSession.Engine
import DebugSession.Proofs.Recall
import Mathlib.Data.List.Induction

namespace DebugSession

inductive ProcessEntry
  | event
  | asked
  | answered (start : Nat) (r : Except EngineError (List ProcessInfo))
  | called
  | returned (r : Except SessionError (List ProcessInfo))
  deriving DecidableEq

namespace ProcessLog

/-- Of an event and a list of the engine, the later one counts. A list is known with the place where
the engine was asked for it. -/
def taking (known : Option (Nat × List ProcessInfo)) :
    ProcessEntry → Option (Nat × List ProcessInfo)
  | .event => none
  | .answered start (.ok ps) => some (start, ps)
  | .answered _ (.error _) | .asked | .called | .returned _ => known

def known (log : List ProcessEntry) : Option (Nat × List ProcessInfo) := log.foldl taking none

def isList : ProcessEntry → Bool
  | .answered _ (.ok _) => true
  | _ => false

def isListSince (n : Nat) : ProcessEntry → Bool
  | .answered start (.ok _) => n ≤ start
  | _ => false

def Fresh (log : List ProcessEntry) : Prop :=
  ∀ start ps, known log = some (start, ps) → .event ∉ log.drop start

def UpToDate (log : List ProcessEntry) : Prop := ∀ past later, log = past ++ later → Fresh past

/-- A user who is answered without the engine is not given a list from before the latest event. -/
def Prompt (log : List ProcessEntry) : Prop :=
  ∀ past ps later, log = past ++ .called :: .returned (.ok ps) :: later → Fresh past

/-- From one event to the next, the engine lists the processes once. -/
def Sparing (log : List ProcessEntry) : Prop :=
  ∀ before between later, log = before ++ between ++ later → .event ∉ between →
    between.countP (isListSince before.length) ≤ 1

def Undisturbed (log : List ProcessEntry) : Prop :=
  ∀ past start ps later, log = past ++ .answered start (.ok ps) :: later →
    ∀ j ∈ past.drop start, j ≠ .event ∧ isList j = false

section Due

variable (s : SessionId)

def owned (ps : List ProcessInfo) : List ProcessInfo := ps.map ({ · with session := some s })

def told : Except EngineError (List ProcessInfo) → Except SessionError (List ProcessInfo)
  | .ok ps => .ok (owned s ps)
  | .error e => .error (.command EngineRequest.processes.name e)

/-- What may be written next. The engine is asked only if no list is known, and what it was asked
for last it answers first. A user is told at once what is known, or what the engine has just
answered. -/
def Due (past : List ProcessEntry) : ProcessEntry → Prop
  | .event | .called => True
  | .asked => known past = none
  | .answered start _ => past[start]? = some .asked ∧
      ∀ start' r, .answered start' r ∈ past.drop start → start < start'
  | .returned r =>
    match past.getLast? with
    | some .called => r = .error .detached ∨
        ∃ start ps, known past = some (start, ps) ∧ r = .ok (owned s ps)
    | some (.answered _ a) => r = told s a
    | _ => False

def Proper (log : List ProcessEntry) : Prop :=
  ∀ past j later, log = past ++ j :: later → Due s past j

end Due

variable {s : SessionId} {log past : List ProcessEntry} {start : Nat} {ps : List ProcessInfo}
variable {j : ProcessEntry}

theorem isList_iff : isList j = true ↔ ∃ start ps, j = .answered start (.ok ps) := by
  constructor
  · intro h
    unfold isList at h
    split at h
    · exact ⟨_, _, rfl⟩
    · cases h
  · rintro ⟨start, ps, rfl⟩
    rfl

theorem isListSince_iff {n : Nat} :
    isListSince n j = true ↔ ∃ start ps, j = .answered start (.ok ps) ∧ n ≤ start := by
  constructor
  · intro h
    unfold isListSince at h
    split at h
    · exact ⟨_, _, rfl, of_decide_eq_true h⟩
    · cases h
  · rintro ⟨start, ps, rfl, h⟩
    exact decide_eq_true h

@[simp] theorem known_concat (log : List ProcessEntry) (j : ProcessEntry) :
    known (log ++ [j]) = taking (known log) j := by
  rw [known, List.foldl_append, List.foldl_cons, List.foldl_nil, known]

theorem taking_of_plain {known : Option (Nat × List ProcessInfo)} (hevent : j ≠ .event)
    (hlist : isList j = false) : taking known j = known := by
  cases j with
  | event => exact absurd rfl hevent
  | answered start r =>
      cases r with
      | ok ps => cases hlist
      | error e => rfl
  | asked | called | returned => rfl

/-- Where a list that is known was written. -/
theorem exists_of_known (h : known log = some (start, ps)) :
    ∃ before later, log = before ++ .answered start (.ok ps) :: later ∧
      ∀ j ∈ later, j ≠ .event ∧ isList j = false := by
  induction log using List.reverseRecOn with
  | nil => cases h
  | append_singleton log j ih =>
      rw [known_concat] at h
      cases hlist : isList j with
      | true =>
          obtain ⟨start', ps', rfl⟩ := isList_iff.mp hlist
          simp only [taking, Option.some.injEq, Prod.mk.injEq] at h
          obtain ⟨rfl, rfl⟩ := h
          exact ⟨log, [], rfl, fun _ hj => nomatch hj⟩
      | false =>
          have hevent : j ≠ .event := by
            rintro rfl
            cases h
          rw [taking_of_plain hevent hlist] at h
          obtain ⟨before, later, rfl, hlater⟩ := ih h
          refine ⟨before, later ++ [j], by simp, fun j' hj' => ?_⟩
          rcases List.mem_append.mp hj' with hj' | hj'
          · exact hlater j' hj'
          · exact List.mem_singleton.mp hj' ▸ ⟨hevent, hlist⟩

/-- A list is known for as long as no event comes in. -/
theorem known_of_isList {before later : List ProcessEntry} (hj : isList j = true)
    (hlater : .event ∉ later) : (known (before ++ j :: later)).isSome = true := by
  have hknown {log : List ProcessEntry} {j : ProcessEntry} (hj : isList j = true) :
      (known (log ++ [j])).isSome = true := by
    obtain ⟨start, ps, rfl⟩ := isList_iff.mp hj
    rw [known_concat]
    rfl
  induction later using List.reverseRecOn with
  | nil => exact hknown hj
  | append_singleton later j' ih =>
      simp only [List.mem_append, List.mem_singleton, not_or] at hlater
      rw [← List.cons_append, ← List.append_assoc]
      cases hlist : isList j' with
      | true => exact hknown hlist
      | false =>
          rw [known_concat, taking_of_plain (Ne.symm hlater.2) hlist]
          exact ih hlater.1

theorem Due.start_lt {r : Except EngineError (List ProcessInfo)}
    (h : Due s past (.answered start r)) : start < past.length :=
  (List.getElem?_eq_some_iff.mp h.1).1

theorem Proper.upToDate (hlog : Proper s log) (hundisturbed : Undisturbed log) : UpToDate log := by
  intro past rest hpast start ps hknown
  obtain ⟨before, later, rfl, hlater⟩ := exists_of_known hknown
  have hcut : log = before ++ .answered start (.ok ps) :: (later ++ rest) := by
    rw [hpast, List.append_assoc, List.cons_append]
  have hstart : start ≤ before.length := Nat.le_of_lt (hlog _ _ _ hcut).start_lt
  rw [List.drop_append_of_le_length hstart, List.mem_append, List.mem_cons]
  rintro (hmem | hmem | hmem)
  · exact (hundisturbed _ _ _ _ hcut _ hmem).1 rfl
  · cases hmem
  · exact (hlater _ hmem).1 rfl

/-- Two of what is counted, if there is more than one. -/
theorem exists_two_of_countP {α : Type} {p : α → Bool} {xs : List α} (h : 1 < xs.countP p) :
    ∃ before x between y later, xs = before ++ x :: between ++ y :: later ∧ p x = true ∧
      p y = true := by
  rw [List.countP_eq_length_filter] at h
  match hfilter : xs.filter p, h with
  | x :: y :: rest, _ =>
      obtain ⟨before, tail, rfl, -, hx, htail⟩ := List.filter_eq_cons_iff.mp hfilter
      obtain ⟨between, later, rfl, -, hy, -⟩ := List.filter_eq_cons_iff.mp htail
      exact ⟨before, x, between, y, later, by simp, hx, hy⟩

theorem mem_drop_append {α : Type} {before later : List α} {x : α} {n : Nat}
    (hn : n ≤ before.length) : x ∈ (before ++ x :: later).drop n := by
  rw [List.drop_append_of_le_length hn]
  exact List.mem_append_right _ List.mem_cons_self

theorem Proper.sparing (hlog : Proper s log) (hundisturbed : Undisturbed log) : Sparing log := by
  intro before stretch later hcut hevent
  refine Nat.le_of_not_lt fun htwo => ?_
  obtain ⟨head, x, between, y, tail, rfl, hx, hy⟩ := exists_two_of_countP htwo
  obtain ⟨start, ps, rfl, -⟩ := isListSince_iff.mp hy
  obtain ⟨start', ps', hlist, -⟩ := isListSince_iff.mp hx
  have hlist : isList x = true := isList_iff.mpr ⟨start', ps', hlist⟩
  have hpast : log = (before ++ head ++ x :: between) ++ .answered start (.ok ps) ::
      (tail ++ later) := by simp [hcut]
  -- The engine is asked for the second list when it has answered with the first.
  have hstart : (before ++ head ++ [x]).length ≤ start := by
    refine Nat.le_of_not_lt fun hlt => ?_
    have hlt : start ≤ (before ++ head).length := by
      simp only [List.length_append, List.length_singleton] at hlt ⊢
      omega
    simpa [hlist] using (hundisturbed _ _ _ _ hpast x (mem_drop_append hlt)).2
  have hasked := (hlog _ _ _ hpast).1
  rw [List.append_cons, List.getElem?_append_right hstart] at hasked
  obtain ⟨between, rest, rfl⟩ := List.append_of_mem (List.mem_of_getElem? hasked)
  -- So a list is known by then, for no event has done away with it.
  have hbetween : .event ∉ between := fun hmem => hevent (by simp [hmem])
  have hsome : (known (before ++ head ++ x :: between)).isSome = true :=
    known_of_isList hlist hbetween
  have hnone : known (before ++ head ++ x :: between) = none := by
    refine hlog _ .asked (rest ++ .answered start (.ok ps) :: (tail ++ later)) ?_
    simp [hcut]
  rw [hnone] at hsome
  cases hsome

theorem Proper.undisturbed (hlog : Proper s log) (huptodate : UpToDate log)
    (hsparing : Sparing log) : Undisturbed log := by
  intro past start ps later hcut j hj
  have hdue := hlog _ _ _ hcut
  have hstart : start ≤ past.length := Nat.le_of_lt hdue.start_lt
  have hevent : .event ∉ past.drop start := fun hmem => by
    refine huptodate (past ++ [.answered start (.ok ps)]) later (by simp [hcut]) start ps
      (by simp [taking]) ?_
    rw [List.drop_append_of_le_length hstart]
    exact List.mem_append_left _ hmem
  refine ⟨fun heq => hevent (heq ▸ hj), Bool.eq_false_iff.mpr fun hlist => ?_⟩
  -- The list that was had in between, and the one that is written now.
  have hone := hsparing (past.take start) (past.drop start ++ [.answered start (.ok ps)]) later
    (by rw [← List.append_assoc, List.take_append_drop, hcut, List.append_assoc]; rfl)
    (by simpa using hevent)
  have hlength : (past.take start).length = start := List.length_take_of_le hstart
  have hfirst : 0 < (past.drop start).countP (isListSince start) := by
    obtain ⟨start', ps', rfl⟩ := isList_iff.mp hlist
    refine List.countP_pos_iff.mpr ⟨_, hj, isListSince_iff.mpr ⟨start', ps', rfl, ?_⟩⟩
    exact Nat.le_of_lt (hdue.2 start' _ hj)
  rw [hlength, List.countP_append, List.countP_singleton] at hone
  simp only [isListSince, Nat.le_refl, decide_true, if_true] at hone
  omega

theorem Proper.undisturbed_iff (hlog : Proper s log) :
    UpToDate log ∧ Sparing log ↔ Undisturbed log :=
  ⟨fun h => hlog.undisturbed h.1 h.2, fun h => ⟨hlog.upToDate h, hlog.sparing h⟩⟩

theorem UpToDate.prompt (h : UpToDate log) : Prompt log := fun _ _ _ hcut => h _ _ hcut

theorem proper_nil (s : SessionId) : Proper s [] := fun past _ _ h => by simp at h

theorem Proper.concat (hlog : Proper s log) (hj : Due s log j) : Proper s (log ++ [j]) := by
  intro past j' later hcut
  rcases append_singleton_eq hcut with ⟨rfl, rfl, -⟩ | ⟨rest, -, hlog'⟩
  · exact hj
  · exact hlog past j' rest hlog'

end ProcessLog

end DebugSession
