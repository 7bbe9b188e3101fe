import DebugSession.Proofs.Numeral
import DebugSession.Proofs.Run
import DebugSession.Session.Inspection
import DebugSession.Simulation.Host

namespace DebugSession

open Act

theorem Memory.find?_store {α : Type} (m : Memory α) (key : String) (answer : Option α)
    (key' : String) : (m.store key answer).find? key' =
      (m.find? key').or (if key' = key then some answer else none) := by
  simp only [store]
  by_cases hknown : (m.find? key).isSome = true
  · rw [if_pos hknown]
    split
    · rename_i heq
      obtain ⟨known, hsome⟩ := Option.isSome_iff_exists.mp hknown
      rw [heq, hsome, Option.some_or]
    · rw [Option.or_none]
  · rw [if_neg hknown]
    simp only [find?, List.lookup_append, List.lookup_cons, List.lookup_nil]
    by_cases heq : key' = key
    · simp [heq]
    · rw [if_neg heq, beq_eq_false_iff_ne.mpr heq]

namespace SourceLocation

def fileText (l : SourceLocation) : List Char := (l.file.getD "<unknown>").toList

def place (l : SourceLocation) : List Char :=
  l.fileText ++ match l.line, l.column with
    | some line, some column => ':' :: Nat.toDigits 10 line ++ ':' :: Nat.toDigits 10 column
    | some line, none => ':' :: Nat.toDigits 10 line
    | none, _ => []

theorem toList_position (l : SourceLocation) :
    (l.file.getD "<unknown>" ++ l.position).toList = l.place := by
  rw [String.toList_append, place, fileText]
  congr 1
  simp only [position]
  cases l.line with
  | none => rfl
  | some line => cases l.column <;> simp [toString]

theorem append_text (xs : List Char) (l : SourceLocation) : xs ++ ' ' :: l.text.toList =
    if l.method = "" then xs ++ ' ' :: l.place
    else (xs ++ ' ' :: l.place) ++ ' ' :: ('(' :: l.method.toList ++ [')']) := by
  simp only [text, String.isEmpty_iff]
  split
  · rw [toList_position]
  · rw [String.toList_append, toList_position]
    simp [toString]

/-- A location that is told by its text, even where another text ends right before it. -/
structure Plain (l : SourceLocation) : Prop where
  known : l.file ≠ some "<unknown>"
  blank : ' ' ∉ l.fileText
  bracket : l.fileText.head? ≠ some '('
  /-- The file does not end like a line number. -/
  number : ∀ before n, l.fileText ≠ before ++ ':' :: Nat.toDigits 10 n
  method : ' ' ∉ l.method.toList
  column : l.column.isSome → l.line.isSome

/-- The last occurrence of a letter cuts a text in one way. -/
theorem cut_last {c : Char} {xs xs' ys ys' : List Char} (hys : c ∉ ys) (hys' : c ∉ ys')
    (h : xs ++ c :: ys = xs' ++ c :: ys') : xs = xs' ∧ ys = ys' := by
  rcases List.append_eq_append_iff.mp h with ⟨zs, rfl, hzs⟩ | ⟨zs, rfl, hzs⟩
  · cases zs with
    | nil => simpa using hzs
    | cons z zs => exact absurd (by simp [(List.cons.inj hzs).2]) hys
  · cases zs with
    | nil => simpa [eq_comm] using hzs
    | cons z zs => exact absurd (by simp [(List.cons.inj hzs).2]) hys'

theorem not_mem_toDigits {c : Char} (hc : c.isDigit = false) (n : Nat) : c ∉ Nat.toDigits 10 n :=
  fun hmem => by simp [Decimal.isDigit_of_mem_toDigits hmem] at hc

theorem cut_number {xs xs' : List Char} {n n' : Nat}
    (h : xs ++ ':' :: Nat.toDigits 10 n = xs' ++ ':' :: Nat.toDigits 10 n') :
    xs = xs' ∧ n = n' := by
  have hcolon (n : Nat) : ':' ∉ Nat.toDigits 10 n := not_mem_toDigits (by decide) n
  obtain ⟨hxs, hdigits⟩ := cut_last (hcolon n) (hcolon n') h
  have hread := congrArg Decimal.readNat hdigits
  rw [Decimal.readNat_toDigits, Decimal.readNat_toDigits] at hread
  exact ⟨hxs, Option.some.inj hread⟩

variable {l l' : SourceLocation}

theorem Plain.file_inj (hl : l.Plain) (hl' : l'.Plain) (h : l.fileText = l'.fileText) :
    l.file = l'.file := by
  have hknown := hl.known
  have hknown' := hl'.known
  have htext := String.toList_inj.mp h
  cases hfile : l.file <;> cases hfile' : l'.file <;> simp_all

theorem Plain.place_cases (hl : l.Plain) :
    (l.line = none ∧ l.column = none ∧ l.place = l.fileText) ∨
      (∃ line, l.line = some line ∧ l.column = none ∧
        l.place = l.fileText ++ ':' :: Nat.toDigits 10 line) ∨
      ∃ line column, l.line = some line ∧ l.column = some column ∧
        l.place = (l.fileText ++ ':' :: Nat.toDigits 10 line) ++ ':' :: Nat.toDigits 10 column := by
  have hcolumn := hl.column
  simp only [place]
  cases hline : l.line with
  | none =>
      rw [hline] at hcolumn
      exact .inl ⟨rfl, by simpa using hcolumn, List.append_nil _⟩
  | some line =>
      cases hcol : l.column with
      | none => exact .inr (.inl ⟨line, rfl, rfl, rfl⟩)
      | some column => exact .inr (.inr ⟨line, column, rfl, rfl, by simp⟩)

theorem Plain.place_inj (hl : l.Plain) (hl' : l'.Plain) (h : l.place = l'.place) :
    l.file = l'.file ∧ l.line = l'.line ∧ l.column = l'.column := by
  rcases hl.place_cases with ⟨h₁, h₂, hplace⟩ | ⟨n, h₁, h₂, hplace⟩ | ⟨n, m, h₁, h₂, hplace⟩ <;>
    rcases hl'.place_cases with ⟨h₁', h₂', hplace'⟩ | ⟨n', h₁', h₂', hplace'⟩ |
      ⟨n', m', h₁', h₂', hplace'⟩ <;>
    rw [hplace, hplace'] at h <;> rw [h₁, h₂, h₁', h₂']
  case inl.inl => exact ⟨hl.file_inj hl' h, rfl, rfl⟩
  case inl.inr.inl => exact absurd h (hl.number _ _)
  case inl.inr.inr => exact absurd h (hl.number _ _)
  case inr.inl.inl => exact absurd h.symm (hl'.number _ _)
  case inr.inl.inr.inl =>
    obtain ⟨hfile, rfl⟩ := cut_number h
    exact ⟨hl.file_inj hl' hfile, rfl, rfl⟩
  case inr.inl.inr.inr => exact absurd (cut_number h).1 (hl.number _ _)
  case inr.inr.inl => exact absurd h.symm (hl'.number _ _)
  case inr.inr.inr.inl => exact absurd (cut_number h).1.symm (hl'.number _ _)
  case inr.inr.inr.inr =>
    obtain ⟨hplace, rfl⟩ := cut_number h
    obtain ⟨hfile, rfl⟩ := cut_number hplace
    exact ⟨hl.file_inj hl' hfile, rfl, rfl⟩

theorem Plain.not_mem_place (hl : l.Plain) : ' ' ∉ l.place := by
  have hblank (n : Nat) : ' ' ∉ Nat.toDigits 10 n := not_mem_toDigits (by decide) n
  rcases hl.place_cases with ⟨-, -, hplace⟩ | ⟨n, -, -, hplace⟩ | ⟨n, m, -, -, hplace⟩ <;>
    rw [hplace] <;> simp [hl.blank, hblank]

theorem Plain.head?_place (hl : l.Plain) : l.place.head? ≠ some '(' := by
  have hbracket := hl.bracket
  rw [place]
  cases hfile : l.fileText with
  | cons c cs => simpa [hfile] using hbracket
  | nil => cases l.line <;> cases l.column <;> simp

theorem eq_of_text {l l' : SourceLocation} (hplace : l.file = l'.file ∧ l.line = l'.line ∧
    l.column = l'.column) (hmethod : l.method = l'.method) : l = l' := by
  cases l
  cases l'
  simp_all

/-- A text ahead of a plain location, with a blank between them. -/
theorem Plain.append_inj {xs xs' : List Char} (hl : l.Plain) (hl' : l'.Plain)
    (h : xs ++ ' ' :: l.text.toList = xs' ++ ' ' :: l'.text.toList) : xs = xs' ∧ l = l' := by
  have htail {l : SourceLocation} (hl : l.Plain) : ' ' ∉ '(' :: l.method.toList ++ [')'] := by
    simp [hl.method]
  rw [append_text, append_text] at h
  by_cases hm : l.method = "" <;> by_cases hm' : l'.method = ""
  · rw [if_pos hm, if_pos hm'] at h
    obtain ⟨hxs, hplace⟩ := cut_last hl.not_mem_place hl'.not_mem_place h
    exact ⟨hxs, eq_of_text (hl.place_inj hl' hplace) (hm.trans hm'.symm)⟩
  · rw [if_pos hm, if_neg hm'] at h
    obtain ⟨-, hplace⟩ := cut_last hl.not_mem_place (htail hl') h
    exact absurd (by rw [hplace]; rfl) hl.head?_place
  · rw [if_neg hm, if_pos hm'] at h
    obtain ⟨-, hplace⟩ := cut_last (htail hl) hl'.not_mem_place h
    exact absurd (by rw [← hplace]; rfl) hl'.head?_place
  · rw [if_neg hm, if_neg hm'] at h
    obtain ⟨hrest, hmethod⟩ := cut_last (htail hl) (htail hl') h
    obtain ⟨hxs, hplace⟩ := cut_last hl.not_mem_place hl'.not_mem_place hrest
    refine ⟨hxs, eq_of_text (hl.place_inj hl' hplace) ?_⟩
    exact String.toList_inj.mp (List.append_cancel_right (List.cons.inj hmethod).2)

end SourceLocation

structure Question where
  expression : String
  location : SourceLocation
  deriving DecidableEq

namespace Question

def key (q : Question) : String := SessionId.expressionKey q.expression q.location

def leader (asked : List Question) (q : Question) : Question :=
  (asked.find? (·.key == q.key)).getD q

def leaders : List Question → List Question
  | [] => []
  | q :: rest => q :: (leaders rest).filter (·.key != q.key)

theorem toList_key (q : Question) :
    q.key.toList = q.expression.toList ++ ' ' :: q.location.text.toList := by
  simp [key, SessionId.expressionKey, toString]

theorem key_inj {q q' : Question} (hq : q.location.Plain) (hq' : q'.location.Plain)
    (h : q.key = q'.key) : q = q' := by
  have htext := congrArg String.toList h
  rw [toList_key, toList_key] at htext
  obtain ⟨hexpression, hlocation⟩ := hq.append_inj hq' htext
  cases q
  cases q'
  simp_all [String.toList_inj]

variable {asked : List Question} {q : Question}

theorem leaders_concat (asked : List Question) (q : Question) : leaders (asked ++ [q]) =
    leaders asked ++ if (asked.find? (·.key == q.key)).isSome then [] else [q] := by
  induction asked with
  | nil => rfl
  | cons p rest ih =>
      rw [List.cons_append, leaders, ih, List.filter_append, leaders, List.cons_append]
      congr 2
      by_cases hkey : p.key = q.key
      · rw [List.find?_cons_of_pos (by simp [hkey])]
        simp only [Option.isSome_some, if_true]
        split <;> simp [hkey]
      · rw [List.find?_cons_of_neg (by simp [hkey])]
        split <;> simp [Ne.symm hkey]

theorem nodup_leaders (asked : List Question) : ((leaders asked).map key).Nodup := by
  induction asked with
  | nil => exact List.nodup_nil
  | cons q rest ih =>
      rw [leaders, List.map_cons, List.nodup_cons]
      refine ⟨fun hmem => ?_, ih.sublist (List.filter_sublist.map key)⟩
      obtain ⟨p, hp, hkey⟩ := List.mem_map.mp hmem
      simpa [hkey] using (List.mem_filter.mp hp).2

theorem leader_key (asked : List Question) (q : Question) : (q.leader asked).key = q.key := by
  simp only [leader]
  cases hfind : asked.find? (·.key == q.key) with
  | none => rfl
  | some p => simpa using List.find?_some hfind

theorem leader_mem (hq : q ∈ asked) : q.leader asked ∈ asked := by
  simp only [leader]
  cases hfind : asked.find? (·.key == q.key) with
  | none => exact hq
  | some p => exact List.mem_of_find?_eq_some hfind

theorem leader_congr {q' : Question} (hq : q ∈ asked) (hkey : q.key = q'.key) :
    q.leader asked = q'.leader asked := by
  simp only [leader, ← hkey]
  cases hfind : asked.find? (·.key == q.key) with
  | none => simpa using List.find?_eq_none.mp hfind q hq
  | some p => rfl

theorem leaders_themselves_iff (asked : List Question) : (∀ q ∈ asked, q.leader asked = q) ↔
    ∀ q ∈ asked, ∀ q' ∈ asked, q.key = q'.key → q = q' := by
  constructor
  · intro hself q hq q' hq' hkey
    rw [← hself q hq, ← hself q' hq', leader_congr hq hkey]
  · intro hkeys q hq
    exact hkeys _ (leader_mem hq) q hq (leader_key asked q)

end Question

/-- A session with a resolver of types, the one answer that its engine has for each question, and
where the host notes the questions that the engine was asked. -/
structure ExpressionResolver (σ : Type) where
  session : SessionId
  resolver : CallbackId
  answer : Question → Except EngineError (Option String)
  asked : σ → List Question

namespace ExpressionResolver

variable {σ : Type} (T : ExpressionResolver σ) (h : Host σ)

def outcome (q : Question) : Option String := (T.answer q).toOption.join

def resolved (leader q : Question) : String := (T.outcome leader).getD q.expression

def Remembers (w : World σ) (m : Memory String) : Prop :=
  ∃ x, w.sessions[T.session.index]? = some x ∧ x.expressions = m ∧
    x.handlers.typeNames = some T.resolver

def ask (q : Question) : Attempt (Act σ) (Option String) :=
  (h.engine T.session).resolveExpression q.expression q.location
    (h.resolveType T.resolver · q.location)

/-- The engine answers every question in its one way. It may do what it likes otherwise, but leaves
alone what the session remembers and its resolver, and so do the writers of logs. -/
structure Serves : Prop where
  answer : ∀ q c w m, T.Remembers w m → ∃ w',
    run (T.ask h q).run c w = (.ok (T.answer q), w') ∧ T.Remembers w' m ∧
      T.asked w'.host = T.asked w.host ++ [q]
  write : ∀ k isError text c w m, T.Remembers w m → ∃ w',
    run (h.write k isError text) c w = (.ok (), w') ∧ T.Remembers w' m ∧
      T.asked w'.host = T.asked w.host

def resolve (q : Question) : Act σ String :=
  T.session.resolveExpression h q.expression q.location

def replies : World σ → List (Scope × Question) → List (Except Panic String)
  | _, [] => []
  | w, (c, q) :: rest =>
    (run (T.resolve h q) c w).1 :: replies (run (T.resolve h q) c w).2 rest

def after (w : World σ) (calls : List (Scope × Question)) : World σ :=
  calls.foldl (fun w x => (run (T.resolve h x.2) x.1 w).2) w

/-- Each call is answered as if it were the only one. -/
def Transparent (w : World σ) (calls : List (Scope × Question)) : Prop :=
  T.replies h w calls = calls.map fun x => .ok (T.resolved x.2 x.2)

variable {T h} {w : World σ} {m : Memory String}

theorem Remembers.session (hw : T.Remembers w m) (c : Scope) :
    ∃ x, run (Act.session T.session) c w = (.ok x, w) ∧ x.expressions = m ∧
      x.handlers.typeNames = some T.resolver := by
  obtain ⟨x, hx, hm, hresolver⟩ := hw
  refine ⟨x, ?_, hm, hresolver⟩
  change (Except.ok (w.sessions.getD T.session.index default), w) = _
  rw [Array.getD_eq_getD_getElem?, hx]
  rfl

theorem Remembers.log (hT : T.Serves h) (hw : T.Remembers w m) (isError : Bool) (text : String)
    (c : Scope) : ∃ w', run (h.log T.session isError text) c w = (.ok (), w') ∧ T.Remembers w' m ∧
      T.asked w'.host = T.asked w.host := by
  obtain ⟨x, hx, -⟩ := hw.session c
  let router := w.routers.getD x.output.index {}
  have hrouter : run (Act.router x.output) c w = (.ok router, w) := rfl
  simp only [Host.log, Host.writeTo, run_bind, hx, hrouter, OutputRouter.write]
  cases router.writer .log with
  | none => exact ⟨w, rfl, hw, rfl⟩
  | some k => exact hT.write k isError text c w m hw

theorem Remembers.ask (hT : T.Serves h) (hw : T.Remembers w m) (q : Question) (c : Scope) :
    ∃ w', run (T.session.askExpression h T.resolver q.expression q.location) c w =
        (.ok (T.outcome q), w') ∧ T.Remembers w' m ∧
      T.asked w'.host = T.asked w.host ++ [q] := by
  obtain ⟨w', hrun, hw', hasked⟩ := hT.answer q c w m hw
  simp only [ExpressionResolver.ask] at hrun
  simp only [SessionId.askExpression, run_bind, hrun]
  cases hanswer : T.answer q with
  | ok x => exact ⟨w', by simp [outcome, hanswer, Except.toOption]; rfl, hw', hasked⟩
  | error e =>
      obtain ⟨w'', hlog, hw'', hasked'⟩ :=
        hw'.log hT true s!"Error while resolving expression: {e.message}" c
      refine ⟨w'', ?_, hw'', hasked'.trans hasked⟩
      simp only [run_bind, hlog, outcome, hanswer]
      rfl

theorem Remembers.store (hw : T.Remembers w m) (key : String) (answer : Option String) (c : Scope) :
    ∃ w', run (modifySession T.session fun x =>
        { x with expressions := x.expressions.store key answer }) c w = (.ok (), w') ∧
      T.Remembers w' (m.store key answer) ∧ w'.host = w.host := by
  obtain ⟨x, hx, rfl, hresolver⟩ := hw
  refine ⟨_, rfl, ⟨{ x with expressions := x.expressions.store key answer }, ?_, rfl,
    hresolver⟩, rfl⟩
  simp [Array.getElem?_modify, hx]

/-- One call: what is remembered under the key, or else the answer of the engine. -/
theorem Remembers.resolve (hT : T.Serves h) (hw : T.Remembers w m) (q : Question) (c : Scope) :
    ∃ w', run (T.resolve h q) c w =
        (.ok (((m.find? q.key).getD (T.outcome q)).getD q.expression), w') ∧
      T.Remembers w' (m.store q.key (T.outcome q)) ∧
      T.asked w'.host = T.asked w.host ++ if (m.find? q.key).isSome then [] else [q] := by
  simp only [ExpressionResolver.resolve, SessionId.resolveExpression, keeping]
  rw [run_withReader]
  obtain ⟨x, hx, hm, hresolver⟩ := hw.session { c with entered := T.session :: c.entered }
  simp only [run_bind, hx, hresolver, hm]
  rw [← Question.key]
  cases hfind : m.find? q.key with
  | some known =>
      have hkept : m.store q.key (T.outcome q) = m := by simp [Memory.store, hfind]
      exact ⟨w, rfl, hkept.symm ▸ hw, by simp⟩
  | none =>
      obtain ⟨w₁, hask, hw₁, hasked⟩ := hw.ask hT q { c with entered := T.session :: c.entered }
      obtain ⟨w₂, hstore, hw₂, hhost⟩ := hw₁.store q.key (T.outcome q)
        { c with entered := T.session :: c.entered }
      obtain ⟨y, hy, hm', -⟩ := hw₂.session { c with entered := T.session :: c.entered }
      refine ⟨w₂, ?_, hw₂, ?_⟩
      · simp only [run_bind, hask, hstore, hy, hm', Memory.find?_store, hfind]
        simp
        rfl
      · rw [hhost, hasked]
        simp

/-- Questions that share a key are mistaken for one another by some engine. -/
theorem resolved_leader_iff (qs : List Question) :
    (∀ T : ExpressionResolver σ, ∀ q ∈ qs, T.resolved (q.leader qs) q = T.resolved q q) ↔
      ∀ q ∈ qs, q.leader qs = q := by
  constructor
  · intro hall q hq
    refine Decidable.byContradiction fun hne => ?_
    let T : ExpressionResolver σ :=
      { session := ⟨0⟩
        resolver := ⟨0⟩
        answer := fun x => .ok (some (if x = q then "this" else "other"))
        asked := fun _ => [] }
    have hT : ("other" : String) = "this" := by
      simpa [T, resolved, outcome, Except.toOption, hne] using hall T q hq
    exact absurd hT (by decide)
  · intro hself T q hq
    rw [hself q hq]

def Recalls (T : ExpressionResolver σ) (past : List Question) (m : Memory String) : Prop :=
  ∀ key, m.find? key = (past.find? (·.key == key)).map T.outcome

theorem Recalls.store {past : List Question} (hm : T.Recalls past m) (q : Question) :
    T.Recalls (past ++ [q]) (m.store q.key (T.outcome q)) := by
  intro key
  rw [Memory.find?_store, hm, List.find?_append, Option.map_or]
  by_cases heq : key = q.key
  · simp [heq]
  · simp [heq, Ne.symm heq]

theorem replies_eq (hT : T.Serves h) (hw : T.Remembers w m) (past : List Question)
    (hm : T.Recalls past m) (calls : List (Scope × Question)) :
    T.replies h w calls = calls.map fun x =>
      .ok (T.resolved (x.2.leader (past ++ calls.map (·.2))) x.2) := by
  -- A question may be led by one from before, so the past grows with each call.
  induction calls generalizing w m past with
  | nil => rfl
  | cons x rest ih =>
      obtain ⟨c, q⟩ := x
      obtain ⟨w', hrun, hw', -⟩ := hw.resolve hT q c
      rw [replies, hrun, List.map_cons, List.map_cons]
      dsimp only
      rw [ih hw' _ (hm.store q), List.append_assoc]
      congr 2
      simp only [resolved, Question.leader, hm q.key, List.find?_append]
      cases past.find? (·.key == q.key) <;> simp

theorem asked_after (hT : T.Serves h) (hw : T.Remembers w m) {before : List Question}
    (past : List Question) (hm : T.Recalls past m)
    (hasked : T.asked w.host = before ++ Question.leaders past)
    (calls : List (Scope × Question)) : T.asked (T.after h w calls).host =
      before ++ Question.leaders (past ++ calls.map (·.2)) := by
  induction calls generalizing w m past with
  | nil =>
      rw [List.map_nil, List.append_nil]
      exact hasked
  | cons x rest ih =>
      obtain ⟨c, q⟩ := x
      obtain ⟨w', hrun, hw', hasked'⟩ := hw.resolve hT q c
      have hnew : T.asked w'.host = before ++ Question.leaders (past ++ [q]) := by
        rw [hasked', hasked, Question.leaders_concat, hm, Option.isSome_map, List.append_assoc]
      have hrest := ih hw' _ (hm.store q) hnew
      rw [List.append_assoc] at hrest
      rw [after, List.foldl_cons, hrun]
      exact hrest

/-- Calls to a session that remembers nothing yet. The first question under a key answers for all of
them, and it alone is put to the engine, failing or not. -/
theorem replies_by_leaders (hT : T.Serves h) (hw : T.Remembers w {})
    (calls : List (Scope × Question)) :
    let qs := calls.map (·.2)
    T.replies h w calls = calls.map (fun x => .ok (T.resolved (x.2.leader qs) x.2)) ∧
      T.asked (T.after h w calls).host = T.asked w.host ++ Question.leaders qs ∧
      ((Question.leaders qs).map Question.key).Nodup ∧
      (T.Transparent h w calls ↔ ∀ q ∈ qs, T.resolved (q.leader qs) q = T.resolved q q) ∧
      ((∀ q ∈ qs, ∀ q' ∈ qs, q.key = q'.key → q = q') → T.Transparent h w calls) ∧
      ((∀ q ∈ qs, q.location.Plain) → T.Transparent h w calls) := by
  intro qs
  have hreplies : T.replies h w calls = _ := replies_eq hT hw [] (fun _ => rfl) calls
  have htransparent : T.Transparent h w calls ↔
      ∀ q ∈ qs, T.resolved (q.leader qs) q = T.resolved q q := by
    rw [Transparent, hreplies, List.map_inj_left, List.forall_mem_map]
    exact forall₂_congr fun x _ => by rw [List.nil_append, Except.ok.injEq]
  have hinj (hkeys : ∀ q ∈ qs, ∀ q' ∈ qs, q.key = q'.key → q = q') : T.Transparent h w calls := by
    rw [htransparent]
    exact (resolved_leader_iff qs).mpr ((Question.leaders_themselves_iff qs).mpr hkeys) T
  refine ⟨hreplies, ?_, Question.nodup_leaders qs, htransparent, hinj, fun hplain => ?_⟩
  · exact asked_after hT hw [] (fun _ => rfl) (List.append_nil _).symm calls
  · exact hinj fun q hq q' hq' hkey => Question.key_inj (hplain q hq) (hplain q' hq') hkey

abbrev Notes := Simulation.Memory × List Question

def scripted : ExpressionResolver Notes where
  session := ⟨0⟩
  resolver := ⟨0⟩
  answer q :=
    if q.expression = "Foo" then .ok (some "N.Foo")
    else if q.expression = "Foo my" then .ok (some "N.Foo my")
    else .error .notRunning
  asked := (·.2)

def scriptedEngine : Engine (Act Notes) :=
  { Engine.answering fun _ => throw .notRunning with
    resolveExpression := fun expression l _ => ExceptT.mk do
      modifyHost fun x => (x.1, x.2 ++ [⟨expression, l⟩])
      return scripted.answer ⟨expression, l⟩ }

def scriptedHost : Host Notes :=
  { Simulation.host default with
    engine := fun _ => scriptedEngine
    write := fun _ _ _ => return }

def resolving : World Notes :=
  { host := (default, [])
    sessions := #[{ Session.new default ⟨0⟩ with handlers := { typeNames := some ⟨0⟩ } }]
    routers := #[{}] }

theorem scripted_serves : scripted.Serves scriptedHost where
  answer := fun q _ w _ hw => ⟨{ w with host := (w.host.1, w.host.2 ++ [q]) }, rfl, hw, rfl⟩
  write := fun _ _ _ _ w _ hw => ⟨w, rfl, hw, rfl⟩

theorem resolving_remembers : scripted.Remembers resolving {} := ⟨_, rfl, rfl, rfl⟩

def caller : Scope := ⟨.caller 0, [], []⟩

def blankInFile : List (Scope × Question) :=
  [(caller, ⟨"Foo", { file := some "my app.cs" }⟩), (caller, ⟨"Foo my", { file := some "app.cs" }⟩)]

theorem not_transparent_blankInFile :
    scripted.Serves scriptedHost ∧ scripted.Remembers resolving {} ∧
      scripted.replies scriptedHost resolving blankInFile = [.ok "N.Foo", .ok "N.Foo"] ∧
      blankInFile.map (fun x => scripted.resolved x.2 x.2) = ["N.Foo", "N.Foo my"] ∧
      ¬scripted.Transparent scriptedHost resolving blankInFile := by
  have hleaders : blankInFile.map (fun x => scripted.resolved
      (x.2.leader (blankInFile.map (·.2))) x.2) = ["N.Foo", "N.Foo"] := by decide +kernel
  have hresolved : blankInFile.map (fun x => scripted.resolved x.2 x.2) =
      ["N.Foo", "N.Foo my"] := by decide +kernel
  have hreplies : scripted.replies scriptedHost resolving blankInFile =
      [.ok "N.Foo", .ok "N.Foo"] := by
    rw [replies_eq scripted_serves resolving_remembers [] fun _ => rfl]
    exact List.map_map.symm.trans (congrArg (List.map Except.ok) hleaders)
  refine ⟨scripted_serves, resolving_remembers, hreplies, hresolved, fun htransparent => ?_⟩
  rw [Transparent, hreplies] at htransparent
  have hok := htransparent.trans (congrArg (List.map Except.ok) hresolved)
  simp at hok

def plainCalls : List (Scope × Question) :=
  [(caller, ⟨"Foo", { method := "Main", file := some "app.cs", line := some 3 }⟩),
    (caller, ⟨"a@b", { file := some "app.cs", line := some 3, column := some 1 }⟩),
    (caller, ⟨"a@b", { file := some "app.cs", line := some 3, column := some 1 }⟩)]

theorem transparent_plainCalls : scripted.Serves scriptedHost ∧ scripted.Remembers resolving {} ∧
    scripted.Transparent scriptedHost resolving plainCalls := by
  refine ⟨scripted_serves, resolving_remembers,
    (replies_by_leaders scripted_serves resolving_remembers plainCalls).2.2.2.2.2 ?_⟩
  have hplain (l : SourceLocation) (hfile : l.file = some "app.cs")
      (hmethod : ' ' ∉ l.method.toList) (hcolumn : l.column.isSome → l.line.isSome) : l.Plain := by
    have htext : l.fileText = "app.cs".toList := by
      rw [SourceLocation.fileText, hfile]
      rfl
    refine ⟨by simp [hfile], by simp [htext], by simp [htext], fun before n hn => ?_, hmethod,
      hcolumn⟩
    have hcolon : ':' ∈ "app.cs".toList := htext ▸ hn ▸ by simp
    simp at hcolon
  intro q hq
  simp only [plainCalls, List.map_cons, List.map_nil, List.mem_cons, List.not_mem_nil,
    or_false] at hq
  rcases hq with rfl | rfl | rfl <;> exact hplain _ rfl (by simp) (by simp)

end ExpressionResolver

end DebugSession
