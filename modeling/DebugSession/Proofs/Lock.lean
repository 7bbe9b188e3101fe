import DebugSession.Proofs.Crew

namespace DebugSession

namespace Mark

def announced? : Mark → Option Command
  | announced k => some k
  | _ => none

def accepted? : Mark → Option Command
  | accepted k => some k
  | _ => none

def taken? : Mark → Option Command
  | taken k => some k
  | _ => none

def begun? : Mark → Option Command
  | begun k => some k
  | _ => none

def ended? : Mark → Option Command
  | ended k => some k
  | _ => none

def finished? : Mark → Option Command
  | finished k => some k
  | _ => none

theorem filterMap_foundIdle {p : Mark → Option Command} (log : List Mark)
    (hp : p .foundIdle = none) : (log ++ [foundIdle]).filterMap p = log.filterMap p := by
  rw [List.filterMap_append, List.filterMap_cons_none hp, List.filterMap_nil, List.append_nil]

end Mark

namespace ClientStage

def hasLock : ClientStage → Bool
  | away => false
  | _ => true

def announcing : ClientStage → List Command
  | admitted k => if k.resumes then [k] else []
  | _ => []

def sent : ClientStage → List Command
  | sending k => [k]
  | _ => []

def job : ClientStage → List Command
  | handedBack k | working k => [k]
  | _ => []

def ahead : ClientStage → List Command
  | handedBack k => [k]
  | _ => []

def body : ClientStage → List Command
  | working k => [k]
  | _ => []

end ClientStage

namespace WorkerStage

def hasLock : WorkerStage → Bool
  | working _ => true
  | _ => false

def job : WorkerStage → List Command
  | away => []
  | holding k | working k | worked k _ | reported k => [k]

def ahead : WorkerStage → List Command
  | holding k => [k]
  | _ => []

def unended : WorkerStage → List Command
  | holding k | working k => [k]
  | _ => []

def body : WorkerStage → List Command
  | working k => [k]
  | _ => []

end WorkerStage

namespace Crew

variable {σ : Type}

def hasLock (x : Crew σ) : Hand → Bool
  | .client i => (x.clients i).hasLock
  | .worker i => (x.workers i).hasLock

/-- Who does something that needs the lock has it, and nobody else. -/
def Guarded (x : Crew σ) : Prop := ∀ a, x.hasLock a = true ↔ x.lock = some a

variable (x : Crew σ) (y : Shared σ) {i j : Nat} (c : ClientStage) (d : WorkerStage)

theorem hasLock_afterClient_of_ne {a : Hand} (ha : a ≠ .client i) :
    (x.afterClient i c y).hasLock a = x.hasLock a := by
  cases a with
  | client j =>
      have hji : j ≠ i := fun hji => ha (congrArg Hand.client hji)
      simp only [hasLock, clients_afterClient_of_ne x y c hji]
  | worker j => rfl

theorem hasLock_afterWorker_of_ne {a : Hand} (ha : a ≠ .worker i) :
    (x.afterWorker i d y).hasLock a = x.hasLock a := by
  cases a with
  | client j => rfl
  | worker j =>
      have hji : j ≠ i := fun hji => ha (congrArg Hand.worker hji)
      simp only [hasLock, workers_afterWorker_of_ne x y d hji]

end Crew

inductive Handling (a : Hand) (had : Bool) (lock : Option Hand) (has : Bool) (lock' : Option Hand) :
    Prop
  | leftAlone (hlock : lock' = lock) (hkept : has = had)
  | taken (hfree : lock = none) (hlock : lock' = some a) (hhas : has = true)
  | givenBack (hheld : had = true) (hlock : lock' = none) (hgiven : has = false)

section Steps

variable {σ : Type} {h : Host σ} {s : SessionId} {n i : Nat}

theorem ClientStep.handling {x y : Shared σ} {c d : ClientStage}
    (hstep : ClientStep h s n i c x d y) :
    Handling (.client i) c.hasLock x.lock d.hasLock y.lock := by
  cases hstep with
  | enter k _ hk hfree => exact .taken hfree rfl rfl
  | visit _ hfree => exact .taken hfree rfl rfl
  | leave => exact .givenBack rfl rfl rfl
  | _ => exact .leftAlone rfl rfl

/-- A client that has nothing to do with the lock is away. -/
theorem ClientStep.before {x y : Shared σ} {c d : ClientStage} (hstep : ClientStep h s n i c x d y) :
    c.hasLock = true ∨ c = .away ∧ x.lock = none := by
  cases hstep with
  | enter k _ hk hfree => exact .inr ⟨rfl, hfree⟩
  | visit _ hfree => exact .inr ⟨rfl, hfree⟩
  | _ => exact .inl rfl

theorem ClientStep.after {x y : Shared σ} {c d : ClientStage} (hstep : ClientStep h s n i c x d y) :
    d.hasLock = true ∨ d = .away ∧ y.lock = none := by
  cases hstep with
  | leave => exact .inr ⟨rfl, rfl⟩
  | _ => exact .inl rfl

theorem WorkerStep.handling {x y : Shared σ} {c d : WorkerStage}
    (hstep : WorkerStep h s i c x d y) :
    Handling (.worker i) c.hasLock x.lock d.hasLock y.lock := by
  cases hstep with
  | begin k _ hfree => exact .taken hfree rfl rfl
  | carryOut k _ r w hrun => exact .givenBack rfl rfl rfl
  | _ => exact .leftAlone rfl rfl

theorem Crew.Guarded.of_handling {x x' : Crew σ} (hx : x.Guarded) {a : Hand}
    (ha : Handling a (x.hasLock a) x.lock (x'.hasLock a) x'.lock)
    (hothers : ∀ b, b ≠ a → x'.hasLock b = x.hasLock b) : x'.Guarded := by
  intro b
  by_cases hba : b = a
  · subst hba
    cases ha with
    | leftAlone hlock hkept =>
        rw [hkept, hlock]
        exact hx b
    | taken hfree hlock hhas => exact iff_of_true hhas hlock
    | givenBack hheld hlock hgiven =>
        rw [hgiven, hlock]
        exact iff_of_false Bool.false_ne_true (Option.some_ne_none b).symm
  · rw [hothers b hba, hx b]
    cases ha with
    | leftAlone hlock => rw [hlock]
    | taken hfree hlock =>
        rw [hfree, hlock]
        exact iff_of_false (Option.some_ne_none b).symm fun hab => hba (Option.some.inj hab).symm
    | givenBack hheld hlock =>
        rw [(hx a).mp hheld, hlock]
        exact iff_of_false (fun hab => hba (Option.some.inj hab).symm) (Option.some_ne_none b).symm

theorem Crew.Guarded.step {x x' : Crew σ} (hx : x.Guarded) (hstep : Crew.Step h s n x x') :
    x'.Guarded := by
  cases hstep with
  | client i c y hstep =>
      refine hx.of_handling (a := .client i) ?_ fun b hb => hasLock_afterClient_of_ne x y c hb
      simp only [hasLock, clients_afterClient_self]
      exact hstep.handling
  | worker i hi c y hstep =>
      refine hx.of_handling (a := .worker i) ?_ fun b hb => hasLock_afterWorker_of_ne x y c hb
      simp only [hasLock, workers_afterWorker_self]
      exact hstep.handling
  | findIdle => exact hx
  | other => exact hx

end Steps

namespace Crew

variable {σ : Type}

def ofClient (f : ClientStage → List Command) (x : Crew σ) : List Command :=
  match x.lock with
  | some (.client i) => f (x.clients i)
  | _ => []

def ofWorkers (g : WorkerStage → List Command) (n : Nat) (x : Crew σ) : List Command :=
  (List.range n).flatMap fun i => g (x.workers i)

variable {x : Crew σ} {n i : Nat}

theorem ofClient_of_lock (f : ClientStage → List Command) (hlock : x.lock = some (.client i)) :
    x.ofClient f = f (x.clients i) := by
  simp only [ofClient, hlock]

theorem ofClient_of_free (f : ClientStage → List Command) (hlock : x.lock = none) :
    x.ofClient f = [] := by
  simp only [ofClient, hlock]

theorem ofClient_of_worker (f : ClientStage → List Command) (hlock : x.lock = some (.worker i)) :
    x.ofClient f = [] := by
  simp only [ofClient, hlock]

theorem ofWorkers_succ (g : WorkerStage → List Command) :
    x.ofWorkers g (n + 1) = x.ofWorkers g n ++ g (x.workers n) := by
  simp [ofWorkers, List.range_succ]

theorem ofWorkers_afterWorker_of_le (g : WorkerStage → List Command) (hi : n ≤ i)
    (c : WorkerStage) (y : Shared σ) : (x.afterWorker i c y).ofWorkers g n = x.ofWorkers g n := by
  refine congrArg List.flatten (List.map_congr_left fun j hj => ?_)
  have hji : j ≠ i := Nat.ne_of_lt (Nat.lt_of_lt_of_le (List.mem_range.mp hj) hi)
  rw [workers_afterWorker_of_ne x y c hji]

theorem ofWorkers_eq_nil {g : WorkerStage → List Command} :
    x.ofWorkers g n = [] ↔ ∀ i < n, g (x.workers i) = [] := by
  simp only [ofWorkers, List.flatMap_eq_nil_iff, List.mem_range]

/-- What one worker has changes, what the others have stays. -/
theorem count_ofWorkers_afterWorker (g : WorkerStage → List Command) (hi : i < n)
    (c : WorkerStage) (y : Shared σ) (k : Command) :
    ((x.afterWorker i c y).ofWorkers g n).count k + (g (x.workers i)).count k =
      (x.ofWorkers g n).count k + (g c).count k := by
  induction n with
  | zero => omega
  | succ n ih =>
      simp only [ofWorkers_succ, List.count_append]
      by_cases hin : i = n
      · subst hin
        rw [ofWorkers_afterWorker_of_le g (Nat.le_refl i), workers_afterWorker_self]
        omega
      · rw [workers_afterWorker_of_ne x y c (Ne.symm hin)]
        have := ih (by omega)
        omega

theorem ofWorkers_of_single (g : WorkerStage → List Command) (hi : i < n) (hn : n ≤ 1) :
    x.ofWorkers g n = g (x.workers i) := by
  obtain rfl : n = 1 := by omega
  obtain rfl : i = 0 := by omega
  simp [ofWorkers, List.range_succ]

variable {h : Host σ} {s : SessionId} {c : ClientStage} {y : Shared σ}
  {f : ClientStage → List Command}

theorem Guarded.ofClient_before (hx : x.Guarded)
    (hstep : ClientStep h s n i (x.clients i) x.toShared c y) (hf : f .away = []) :
    x.ofClient f = f (x.clients i) := by
  rcases hstep.before with hheld | ⟨haway, hfree⟩
  · exact ofClient_of_lock f ((hx (.client i)).mp hheld)
  · rw [ofClient_of_free f hfree, haway, hf]

theorem Guarded.ofClient_afterClient (hx : x.Guarded)
    (hstep : ClientStep h s n i (x.clients i) x.toShared c y) (hf : f .away = []) :
    (x.afterClient i c y).ofClient f = f c := by
  have hself : (x.afterClient i c y).clients i = c := clients_afterClient_self x y c
  rcases hstep.after with hheld | ⟨haway, hfree⟩
  · have hlock : (x.afterClient i c y).lock = some (.client i) :=
      (hx.step (.client i c y hstep) (.client i)).mp
        ((congrArg ClientStage.hasLock hself).trans hheld)
    rw [ofClient_of_lock f hlock, hself]
  · have hfree' : (x.afterClient i c y).lock = none := hfree
    rw [ofClient_of_free f hfree', haway, hf]

theorem Guarded.ofClient_afterWorker (hx : x.Guarded) {c : WorkerStage}
    (hstep : WorkerStep h s i (x.workers i) x.toShared c y) (f : ClientStage → List Command) :
    (x.afterWorker i c y).ofClient f = x.ofClient f := by
  cases hstep.handling with
  | leftAlone hlock hkept => simp only [ofClient, afterWorker, hlock]
  | taken hfree hlock =>
      rw [ofClient_of_free f hfree]
      exact ofClient_of_worker f hlock
  | givenBack hheld hlock =>
      rw [ofClient_of_worker f ((hx (.worker i)).mp hheld)]
      exact ofClient_of_free f hlock

end Crew

end DebugSession
