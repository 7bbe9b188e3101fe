import DebugSession.Observers
import Mathlib.Data.List.Basic

namespace DebugSession.Observers

/-- What is done with observers, by their owner or by a subscriber that is called. What comes next
may depend on the answers so far, and on a memory that all share. -/
inductive Program (τ κ : Type)
  | done
  | consult (next : τ → Program τ κ)
  | remember (f : τ → τ) (next : Program τ κ)
  | subscribe (topic : Option Topic) (callback : κ) (next : SubscriptionId → Program τ κ)
  | unsubscribe (id : SubscriptionId) (next : Bool → Program τ κ)
  | emit (e : SessionEvent) (next : Program τ κ)
  | emitTarget (e : TargetEvent) (next : Program τ κ)

inductive Mark (κ : Type)
  | subscribed (x : Subscriber κ)
  | unsubscribed (id : SubscriptionId) (found : Bool)
  | emits (e : SessionEvent)
  | emitsTarget (e : TargetEvent)
  | emitted
  | calls (callback : κ) (e : SessionEvent)
  | returns

structure Scene (τ κ : Type) where
  observers : Observers κ := {}
  memory : τ
  log : List (Mark κ) := []

/-- Programs that may not come to an end. -/
abbrev Playing (τ κ : Type) := StateT (Scene τ κ) Option

variable {τ κ : Type}

def mark (m : Mark κ) : Playing τ κ Unit := modify fun x => { x with log := x.log ++ [m] }

def current : Playing τ κ (Observers κ) := return (← get).observers

def Program.play (tell : κ → SessionEvent → Playing τ κ Unit) : Program τ κ → Playing τ κ Unit
  | done => return
  | consult next => do (next (← get).memory).play tell
  | remember f next => do
    modify fun x => { x with memory := f x.memory }
    next.play tell
  | subscribe topic callback next => do
    let (id, o) := (← current).subscribe topic callback
    modify fun x => { x with observers := o }
    mark (.subscribed ⟨id, topic, callback⟩)
    (next id).play tell
  | unsubscribe id next => do
    let o ← current
    modify fun x => { x with observers := o.unsubscribe id }
    mark (.unsubscribed id (o.contains id))
    (next (o.contains id)).play tell
  | emit e next => do
    mark (.emits e)
    Observers.emit current tell e
    mark .emitted
    next.play tell
  | emitTarget e next => do
    mark (.emitsTarget e)
    Observers.emitTarget current tell e
    mark .emitted
    next.play tell

/-- A call of a subscriber, which may lead to others, nested in one another up to a depth. -/
def call (react : κ → SessionEvent → Program τ κ) : Nat → κ → SessionEvent → Playing τ κ Unit
  | 0, _, _ => failure
  | n + 1, k, e => do
    mark (.calls k e)
    (react k e).play (call react n)
    mark .returns

def Ends (react : κ → SessionEvent → Program τ κ) (p : Program τ κ) (memory : τ)
    (log : List (Mark κ)) : Prop :=
  ∃ n x, (p.play (call react n)).run { memory := memory } = some ((), x) ∧ x.log = log

namespace Mark

def leaves (id : SubscriptionId) : Mark κ → Bool
  | unsubscribed id' _ => id' == id
  | _ => false

end Mark

def registered : List (Mark κ) → List (Subscriber κ)
  | [] => []
  | .subscribed x :: rest =>
    if rest.any (·.leaves x.id) then registered rest else x :: registered rest
  | _ :: rest => registered rest

def concerned (past : List (Mark κ)) (e : SessionEvent) : List κ :=
  ((registered past).filter fun x => x.topic = none ∨ x.topic = some e.topic).map (·.callback)

mutual

inductive Lawful : List (Mark κ) → List (Mark κ) → Prop
  | nil {past : List (Mark κ)} : Lawful past []
  | subscribed {past rest : List (Mark κ)} {x : Subscriber κ}
      (hfresh : ∀ y, .subscribed y ∈ past → y.id ≠ x.id)
      (hrest : Lawful (past ++ [.subscribed x]) rest) : Lawful past (.subscribed x :: rest)
  | unsubscribed {past rest : List (Mark κ)} {id : SubscriptionId} {found : Bool}
      (hfound : found = true ↔ ∃ x ∈ registered past, x.id = id)
      (hrest : Lawful (past ++ [.unsubscribed id found]) rest) :
      Lawful past (.unsubscribed id found :: rest)
  /-- Whatever the subscribers do is over before anything else happens. -/
  | emitted {past round rest : List (Mark κ)} {e : SessionEvent}
      (hround : Round e (concerned past e) (past ++ [.emits e]) round)
      (hrest : Lawful (past ++ .emits e :: round ++ [.emitted]) rest) :
      Lawful past (.emits e :: round ++ .emitted :: rest)
  /-- The second round goes to those who are subscribed at the end of the first. -/
  | emittedTarget {past typed untyped rest : List (Mark κ)} {e : TargetEvent}
      (htyped : Round (.target e) (concerned past (.target e)) (past ++ [.emitsTarget e]) typed)
      (huntyped : Round (.anyTarget e)
        (concerned (past ++ .emitsTarget e :: typed) (.anyTarget e))
        (past ++ .emitsTarget e :: typed) untyped)
      (hrest : Lawful (past ++ .emitsTarget e :: typed ++ untyped ++ [.emitted]) rest) :
      Lawful past (.emitsTarget e :: typed ++ untyped ++ .emitted :: rest)

inductive Round : SessionEvent → List κ → List (Mark κ) → List (Mark κ) → Prop
  | nil {e : SessionEvent} {past : List (Mark κ)} : Round e [] past []
  | call {e : SessionEvent} {k : κ} {ks : List κ} {past inner rest : List (Mark κ)}
      (hinner : Lawful (past ++ [.calls k e]) inner)
      (hrest : Round e ks (past ++ .calls k e :: inner ++ [.returns]) rest) :
      Round e (k :: ks) past (.calls k e :: inner ++ .returns :: rest)

end

def Mark.isChange : Mark κ → Bool
  | subscribed _ | unsubscribed _ _ => true
  | _ => false

theorem registered_append (past later : List (Mark κ)) : registered (past ++ later) =
    (registered past).filter (fun x => !later.any (·.leaves x.id)) ++ registered later := by
  induction past with
  | nil => rfl
  | cons m rest ih =>
      cases m with
      | subscribed x =>
          simp only [List.cons_append, registered, List.any_append, ih]
          cases rest.any (·.leaves x.id) with
          | true => rfl
          | false =>
              cases hlater : later.any (·.leaves x.id) <;> simp [hlater]
      | _ => exact ih

theorem registered_concat_subscribed (past : List (Mark κ)) (x : Subscriber κ) :
    registered (past ++ [.subscribed x]) = registered past ++ [x] := by
  simp [registered_append, registered, Mark.leaves]

theorem registered_concat_unsubscribed (past : List (Mark κ)) (id : SubscriptionId) (found : Bool) :
    registered (past ++ [.unsubscribed id found]) = (registered past).filter (·.id != id) := by
  rw [registered_append]
  simp only [registered, List.append_nil, List.any_cons, List.any_nil, Mark.leaves, Bool.or_false]
  refine List.filter_congr fun x _ => ?_
  rw [bne, Bool.beq_comm]

theorem registered_concat {m : Mark κ} (hm : m.isChange = false) (past : List (Mark κ)) :
    registered (past ++ [m]) = registered past := by
  cases m with
  | subscribed x => cases hm
  | unsubscribed id found => cases hm
  | _ => simp [registered_append, registered, Mark.leaves]

theorem concerned_concat {m : Mark κ} (hm : m.isChange = false) (past : List (Mark κ))
    (e : SessionEvent) : concerned (past ++ [m]) e = concerned past e := by
  rw [concerned, concerned, registered_concat hm]

namespace Playing

variable {α β : Type}

/-- If a program comes to an end, `Q` holds. -/
def Settles (a : Playing τ κ α) (x : Scene τ κ) (Q : α → Scene τ κ → Prop) : Prop :=
  ∀ y x', a.run x = some (y, x') → Q y x'

variable {a : Playing τ κ α} {f : α → Playing τ κ β} {x : Scene τ κ}
  {P Q : α → Scene τ κ → Prop} {R : β → Scene τ κ → Prop}

theorem Settles.mono (ha : a.Settles x P) (hPQ : ∀ y x', P y x' → Q y x') : a.Settles x Q :=
  fun y x' hrun => hPQ y x' (ha y x' hrun)

theorem Settles.bind (ha : a.Settles x P) (hf : ∀ y x', P y x' → (f y).Settles x' R) :
    Settles (a >>= f) x R := by
  intro z x'' hrun
  rw [StateT.run_bind, Option.bind_eq_bind, Option.bind_eq_some_iff] at hrun
  obtain ⟨⟨y, x'⟩, hrun, hrun'⟩ := hrun
  exact hf y x' (ha y x' hrun) z x'' hrun'

theorem Settles.pure {y : α} (hy : Q y x) : Settles (Pure.pure y) x Q := by
  intro y' x' hrun
  cases hrun
  exact hy

end Playing

open Playing

structure Scene.Sound (x : Scene τ κ) : Prop where
  subscribers : x.observers.subscribers = registered x.log
  numbered : ∀ y, .subscribed y ∈ x.log → y.id.raw < x.observers.next

def Adds (a : Playing τ κ Unit) (P : List (Mark κ) → List (Mark κ) → Prop) : Prop :=
  ∀ x, x.Sound → a.Settles x fun _ x' =>
    x'.Sound ∧ ∃ log, x'.log = x.log ++ log ∧ P x.log log

theorem settles_mark {m : Mark κ} (hm : m.isChange = false) {x : Scene τ κ} (hx : x.Sound) :
    (mark m).Settles x fun _ x' => x'.Sound ∧ x'.log = x.log ++ [m] := by
  rintro _ _ ⟨⟩
  refine ⟨⟨?_, fun y hy => ?_⟩, rfl⟩
  · rw [hx.subscribers]
    exact (registered_concat hm x.log).symm
  · rcases List.mem_append.mp hy with hy | hy
    · exact hx.numbered y hy
    · obtain rfl := List.mem_singleton.mp hy
      cases hm

theorem Scene.Sound.subscribed {x : Scene τ κ} (hx : x.Sound) (topic : Option Topic) (k : κ) :
    Scene.Sound { x with
      observers := (x.observers.subscribe topic k).2
      log := x.log ++ [.subscribed ⟨⟨x.observers.next⟩, topic, k⟩] } := by
  let y : Subscriber κ := ⟨⟨x.observers.next⟩, topic, k⟩
  refine ⟨?_, fun z hz => ?_⟩
  · change x.observers.subscribers ++ [y] = registered (x.log ++ [.subscribed y])
    rw [registered_concat_subscribed, hx.subscribers]
  · rcases List.mem_append.mp hz with hz | hz
    · exact Nat.lt_succ_of_lt (hx.numbered z hz)
    · obtain rfl : z = y := by simpa using hz
      exact Nat.lt_succ_self _

theorem Scene.Sound.unsubscribed {x : Scene τ κ} (hx : x.Sound) (id : SubscriptionId)
    (found : Bool) :
    Scene.Sound { x with
      observers := x.observers.unsubscribe id
      log := x.log ++ [.unsubscribed id found] } := by
  refine ⟨?_, fun z hz => ?_⟩
  · change x.observers.subscribers.filter _ = registered (x.log ++ [.unsubscribed id found])
    rw [registered_concat_unsubscribed, hx.subscribers]
  · rcases List.mem_append.mp hz with hz | hz
    · exact hx.numbered z hz
    · simp at hz

theorem audience_eq {x : Scene τ κ} (hx : x.Sound) (e : SessionEvent) :
    x.observers.audience e.topic = concerned x.log e := by
  rw [audience, concerned, hx.subscribers]
  congr 1
  refine List.filter_congr fun y _ => ?_
  cases y.topic with
  | none => rfl
  | some topic =>
      simp only [Option.all_some, reduceCtorEq, false_or, Option.some.injEq]
      rfl

section

variable {tell : κ → SessionEvent → Playing τ κ Unit}
  (htell : ∀ k e, Adds (tell k e) fun past log =>
    ∃ inner, log = .calls k e :: inner ++ [.returns] ∧ Lawful (past ++ [.calls k e]) inner)
include htell

theorem adds_round (e : SessionEvent) (ks : List κ) :
    Adds (ks.forM (tell · e)) (Round e ks) := by
  induction ks with
  | nil => exact fun x hx => Settles.pure ⟨hx, [], (List.append_nil _).symm, .nil⟩
  | cons k ks ih =>
      intro x hx
      refine (htell k e x hx).bind ?_
      rintro _ x₁ ⟨hx₁, _, hlog₁, inner, rfl, hinner⟩
      refine (ih x₁ hx₁).mono ?_
      rintro _ x₂ ⟨hx₂, rest, hlog₂, hrest⟩
      refine ⟨hx₂, .calls k e :: inner ++ .returns :: rest, ?_, .call hinner ?_⟩
      · rw [hlog₂, hlog₁]
        simp
      · rw [hlog₁] at hrest
        simpa using hrest

theorem adds_emit (e : SessionEvent) (x : Scene τ κ) (hx : x.Sound) :
    (Observers.emit current tell e).Settles x fun _ x' =>
      x'.Sound ∧ ∃ log, x'.log = x.log ++ log ∧ Round e (concerned x.log e) x.log log := by
  refine Settles.bind (P := fun o x' => o = x.observers ∧ x' = x) ?_ ?_
  · rintro _ _ ⟨⟩
    exact ⟨rfl, rfl⟩
  · rintro o x' ⟨rfl, rfl⟩
    rw [audience_eq hx]
    exact adds_round htell e _ x' hx

/-- The second round finds the subscribers as the first one left them. -/
theorem adds_emitTarget (e : TargetEvent) (x : Scene τ κ) (hx : x.Sound) :
    (Observers.emitTarget current tell e).Settles x fun _ x' =>
      x'.Sound ∧ ∃ typed untyped, x'.log = x.log ++ typed ++ untyped ∧
        Round (.target e) (concerned x.log (.target e)) x.log typed ∧
        Round (.anyTarget e) (concerned (x.log ++ typed) (.anyTarget e)) (x.log ++ typed)
          untyped := by
  refine (adds_emit htell (.target e) x hx).bind ?_
  rintro _ x₁ ⟨hx₁, typed, hlog₁, htyped⟩
  refine (adds_emit htell (.anyTarget e) x₁ hx₁).mono ?_
  rintro _ x₂ ⟨hx₂, untyped, hlog₂, huntyped⟩
  rw [hlog₁] at hlog₂ huntyped
  exact ⟨hx₂, typed, untyped, hlog₂, htyped, huntyped⟩

theorem adds_play (p : Program τ κ) : Adds (p.play tell) Lawful := by
  induction p with
  | done => exact fun x hx => Settles.pure ⟨hx, [], (List.append_nil _).symm, .nil⟩
  | consult next ih => exact fun x hx => ih x.memory x hx
  | remember f next ih => exact fun x hx => ih { x with memory := f x.memory } ⟨hx.1, hx.2⟩
  | subscribe topic k next ih =>
      intro x hx
      let y : Subscriber κ := ⟨⟨x.observers.next⟩, topic, k⟩
      let x₁ : Scene τ κ :=
        { x with observers := (x.observers.subscribe topic k).2, log := x.log ++ [.subscribed y] }
      have hfresh : ∀ z, .subscribed z ∈ x.log → z.id ≠ y.id := fun z hz hid =>
        Nat.lt_irrefl _ (hid ▸ hx.numbered z hz)
      change Settles ((next y.id).play tell) x₁ _
      refine (ih y.id x₁ (hx.subscribed topic k)).mono ?_
      rintro _ x' ⟨hx', log, hlog, hlawful⟩
      exact ⟨hx', .subscribed y :: log, by simp [hlog, x₁], .subscribed hfresh hlawful⟩
  | unsubscribe id next ih =>
      intro x hx
      let found := x.observers.contains id
      let x₁ : Scene τ κ :=
        { x with
          observers := x.observers.unsubscribe id
          log := x.log ++ [.unsubscribed id found] }
      have hfound : found = true ↔ ∃ y ∈ registered x.log, y.id = id := by
        simp only [found, contains, hx.subscribers, List.any_eq_true, beq_iff_eq]
      change Settles ((next found).play tell) x₁ _
      refine (ih found x₁ (hx.unsubscribed id found)).mono ?_
      rintro _ x' ⟨hx', log, hlog, hlawful⟩
      exact ⟨hx', .unsubscribed id found :: log, by simp [hlog, x₁], .unsubscribed hfound hlawful⟩
  | emit e next ih =>
      intro x hx
      refine (settles_mark rfl hx).bind ?_
      rintro _ x₁ ⟨hx₁, hlog₁⟩
      refine (adds_emit htell e x₁ hx₁).bind ?_
      rintro _ x₂ ⟨hx₂, round, hlog₂, hround⟩
      refine (settles_mark rfl hx₂).bind ?_
      rintro _ x₃ ⟨hx₃, hlog₃⟩
      refine (ih x₃ hx₃).mono ?_
      rintro _ x' ⟨hx', log, hlog, hlawful⟩
      rw [hlog₁, concerned_concat rfl] at hround
      have hpast : x₃.log = x.log ++ .emits e :: round ++ [.emitted] := by
        rw [hlog₃, hlog₂, hlog₁]
        simp
      rw [hpast] at hlog hlawful
      exact ⟨hx', .emits e :: round ++ .emitted :: log, by simp [hlog], .emitted hround hlawful⟩
  | emitTarget e next ih =>
      intro x hx
      refine (settles_mark rfl hx).bind ?_
      rintro _ x₁ ⟨hx₁, hlog₁⟩
      refine (adds_emitTarget htell e x₁ hx₁).bind ?_
      rintro _ x₂ ⟨hx₂, typed, untyped, hlog₂, htyped, huntyped⟩
      refine (settles_mark rfl hx₂).bind ?_
      rintro _ x₃ ⟨hx₃, hlog₃⟩
      refine (ih x₃ hx₃).mono ?_
      rintro _ x' ⟨hx', log, hlog, hlawful⟩
      rw [hlog₁, concerned_concat rfl] at htyped
      have hfirst : x₁.log ++ typed = x.log ++ .emitsTarget e :: typed := by
        rw [hlog₁]
        simp
      rw [hfirst] at huntyped hlog₂
      rw [hlog₃, hlog₂] at hlog hlawful
      refine ⟨hx', .emitsTarget e :: typed ++ untyped ++ .emitted :: log, by simp [hlog], ?_⟩
      exact .emittedTarget htyped huntyped (by simpa using hlawful)

end

theorem adds_call (react : κ → SessionEvent → Program τ κ) (n : Nat) (k : κ) (e : SessionEvent) :
    Adds (call react n k e) fun past log =>
      ∃ inner, log = .calls k e :: inner ++ [.returns] ∧ Lawful (past ++ [.calls k e]) inner := by
  induction n generalizing k e with
  | zero => exact fun x _ _ _ hrun => by cases hrun
  | succ n ih =>
      intro x hx
      refine (settles_mark rfl hx).bind ?_
      rintro _ x₁ ⟨hx₁, hlog₁⟩
      refine (adds_play ih (react k e) x₁ hx₁).bind ?_
      rintro _ x₂ ⟨hx₂, inner, hlog₂, hinner⟩
      refine (settles_mark rfl hx₂).mono ?_
      rintro _ x₃ ⟨hx₃, hlog₃⟩
      rw [hlog₁] at hinner hlog₂
      exact ⟨hx₃, .calls k e :: inner ++ [.returns], by simp [hlog₃, hlog₂], inner, rfl, hinner⟩

namespace Playing

variable {α β : Type}

def Below (a b : Playing τ κ α) : Prop := ∀ x r, a.run x = some r → b.run x = some r

theorem Below.refl (a : Playing τ κ α) : a.Below a := fun _ _ h => h

theorem Below.bind {a b : Playing τ κ α} {f g : α → Playing τ κ β} (hab : a.Below b)
    (hfg : ∀ y, (f y).Below (g y)) : Below (a >>= f) (b >>= g) := by
  intro x r hrun
  rw [StateT.run_bind, Option.bind_eq_bind, Option.bind_eq_some_iff] at hrun ⊢
  obtain ⟨⟨y, x'⟩, hrun, hrun'⟩ := hrun
  exact ⟨(y, x'), hab x _ hrun, hfg y x' r hrun'⟩

end Playing

section

variable {tell tell' : κ → SessionEvent → Playing τ κ Unit}
  (htell : ∀ k e, (tell k e).Below (tell' k e))
include htell

theorem emit_below (e : SessionEvent) :
    Below (Observers.emit current tell e) (Observers.emit current tell' e) := by
  refine (Below.refl current).bind fun o => ?_
  induction o.audience e.topic with
  | nil => exact Below.refl _
  | cons k ks ih => exact (htell k e).bind fun _ => ih

theorem play_below (p : Program τ κ) : (p.play tell).Below (p.play tell') := by
  induction p with
  | done => exact Below.refl _
  | consult next ih => exact (Below.refl get).bind fun x => ih x.memory
  | remember f next ih => exact (Below.refl (modify _)).bind fun _ => ih
  | subscribe topic k next ih =>
      exact (Below.refl current).bind fun o => (Below.refl (modify _)).bind fun _ =>
        (Below.refl (mark _)).bind fun _ => ih _
  | unsubscribe id next ih =>
      exact (Below.refl current).bind fun o => (Below.refl (modify _)).bind fun _ =>
        (Below.refl (mark _)).bind fun _ => ih _
  | emit e next ih =>
      exact (Below.refl (mark _)).bind fun _ => (emit_below htell e).bind fun _ =>
        (Below.refl (mark _)).bind fun _ => ih
  | emitTarget e next ih =>
      refine (Below.refl (mark _)).bind fun _ => Below.bind ?_ fun _ =>
        (Below.refl (mark _)).bind fun _ => ih
      exact (emit_below htell (.target e)).bind fun _ => emit_below htell (.anyTarget e)

end

theorem call_below (react : κ → SessionEvent → Program τ κ) {n m : Nat} (hnm : n ≤ m) (k : κ)
    (e : SessionEvent) : (call react n k e).Below (call react m k e) := by
  induction n generalizing m k e with
  | zero => exact fun _ _ hrun => by cases hrun
  | succ n ih =>
      obtain ⟨m, rfl⟩ := Nat.exists_eq_add_of_le' hnm
      have hinner (k : κ) (e : SessionEvent) : (call react n k e).Below (call react (m + n) k e) :=
        ih (Nat.le_add_left n m) k e
      exact (Below.refl (mark _)).bind fun _ => (play_below hinner (react k e)).bind fun _ =>
        Below.refl (mark _)

/-- Where a program ends does not depend on how deep calls may be nested. -/
theorem Ends.unique {react : κ → SessionEvent → Program τ κ} {p : Program τ κ} {memory : τ}
    {log log' : List (Mark κ)} (h : Ends react p memory log) (h' : Ends react p memory log') :
    log = log' := by
  obtain ⟨n, x, hrun, rfl⟩ := h
  obtain ⟨m, x', hrun', rfl⟩ := h'
  have hmax := play_below (call_below react (Nat.le_max_left n m)) p _ _ hrun
  have hmax' := play_below (call_below react (Nat.le_max_right n m)) p _ _ hrun'
  rw [hmax] at hmax'
  cases hmax'
  rfl

/-- Whatever subscribers do when they are called, each event reaches those who were subscribed when
it was raised, and nobody else. -/
theorem lawful_of_ends {react : κ → SessionEvent → Program τ κ} {p : Program τ κ} {memory : τ}
    {log : List (Mark κ)} (hends : Ends react p memory log) : Lawful [] log := by
  obtain ⟨n, x, hrun, rfl⟩ := hends
  have hsound : ({ memory := memory } : Scene τ κ).Sound := ⟨rfl, fun y hy => by cases hy⟩
  obtain ⟨-, log, hlog, hlawful⟩ := adds_play (adds_call react n) p _ hsound _ _ hrun
  rw [hlog]
  exact hlawful

def ushering (callback : Nat) : SessionEvent → Program Unit Nat
  | .target _ =>
    if callback = 0 then
      .subscribe none 2 fun _ => .unsubscribe ⟨1⟩ fun _ => .emit .started .done
    else .done
  | _ => .done

def halt : TargetEvent := { kind := .stopped }

def visit : Program Unit Nat :=
  .subscribe (some .stopped) 0 fun _ => .subscribe none 1 fun id =>
    .emitTarget halt <| .unsubscribe id fun _ => .done

def visited : List (Mark Nat) :=
  [.subscribed ⟨⟨0⟩, some .stopped, 0⟩, .subscribed ⟨⟨1⟩, none, 1⟩,
    .emitsTarget halt,
    .calls 0 (.target halt), .subscribed ⟨⟨2⟩, none, 2⟩, .unsubscribed ⟨1⟩ true,
    .emits .started, .calls 2 .started, .returns, .emitted, .returns,
    .calls 1 (.target halt), .returns,
    .calls 2 (.anyTarget halt), .returns,
    .emitted, .unsubscribed ⟨1⟩ false]

/-- Who leaves during a round is still called in it, and who comes is not. -/
theorem lawful_visited : Ends ushering visit () visited ∧ Lawful [] visited :=
  have hends : Ends ushering visit () visited := ⟨3, _, rfl, rfl⟩
  ⟨hends, lawful_of_ends hends⟩

end DebugSession.Observers
