import DebugSession.Evaluator
import DebugSession.Proofs.Run
import Mathlib.Data.List.Induction

namespace DebugSession

open Act

variable {σ α β : Type}

namespace Act

def Gives (a : Act σ α) (x : α) : Prop := ∀ c w, ∃ w', run a c w = (.ok x, w')

namespace Gives

variable {a : Act σ α} {f : α → Act σ β} {x : α} {y : β}

theorem pure (x : α) : Gives (Pure.pure x : Act σ α) x := fun _ w => ⟨w, rfl⟩

theorem bind (ha : a.Gives x) (hf : (f x).Gives y) : Gives (a >>= f) y := by
  intro c w
  obtain ⟨w₁, hrun⟩ := ha c w
  obtain ⟨w₂, hrun'⟩ := hf c w₁
  refine ⟨w₂, ?_⟩
  rw [run_bind, hrun]
  exact hrun'

theorem lift (ha : a.Gives x) : Gives (liftM a : Eval (Act σ) α).run (.ok x) := by
  have hlift : (liftM a : Eval (Act σ) α).run = a >>= fun x => Pure.pure (.ok x) := by
    change (Except.ok <$> a : Act σ (Except EvalError α)) = _
    exact map_eq_pure_bind _ _
  rw [hlift]
  exact ha.bind (pure _)

theorem attempt {a : Eval (Act σ) α} {f : α → Eval (Act σ) β} {r : Except EvalError β}
    (ha : a.run.Gives (.ok x)) (hf : (f x).run.Gives r) : (a >>= f).run.Gives r := by
  rw [ExceptT.run_bind]
  exact ha.bind hf

end Gives

def Returns (a : Act σ α) : Prop := ∀ c w, ∃ x w', run a c w = (.ok x, w')

theorem Gives.returns {a : Act σ α} {x : α} (ha : a.Gives x) : a.Returns :=
  fun c w => ⟨x, ha c w⟩

namespace Returns

theorem pure (x : α) : Returns (Pure.pure x : Act σ α) := (Gives.pure x).returns

theorem bind {a : Act σ α} {f : α → Act σ β} (ha : a.Returns) (hf : ∀ x, (f x).Returns) :
    (a >>= f).Returns := by
  intro c w
  obtain ⟨x, w₁, hrun⟩ := ha c w
  rw [run_bind, hrun]
  exact hf x c w₁

theorem attempt {a : Eval (Act σ) α} {f : α → Eval (Act σ) β} (ha : a.run.Returns)
    (hf : ∀ x, (f x).run.Returns) : (a >>= f).run.Returns := by
  rw [ExceptT.run_bind]
  refine ha.bind fun out => ?_
  cases out with
  | ok x => exact hf x
  | error e => exact pure _

end Returns

end Act

structure Outlook where
  locals : List Reference
  parameters : List Reference
  receiver : Option Reference
  slotValue : EvaluationContext → Slot → TargetValue
  isNull : EvaluationContext → TargetValue → Bool
  isArray : EvaluationContext → TargetValue → Bool
  isInstance : EvaluationContext → TargetValue → Bool
  typeOf : EvaluationContext → TargetValue → TargetType
  members : EvaluationContext → TargetType → TargetValue → List Reference
  childTimeout : Nat

/-- An adapter whose calls succeed. What is null, what is an array and what is a class instance are
different things, and a member is looked for among all members. -/
structure Adapter.Shows (A : Adapter (Act σ)) (ctx : EvaluationContext) (o : Outlook) : Prop where
  locals : (A.locals ctx).run.Gives (.ok o.locals)
  parameters : (A.parameters ctx).run.Gives (.ok o.parameters)
  receiver : (A.receiver ctx).run.Gives (.ok o.receiver)
  readSlot : ∀ c s, (A.readSlot c s).run.Gives (.ok (o.slotValue c s))
  isNull : ∀ c v, (A.isNull c v).Gives (o.isNull c v)
  isArray : ∀ c v, (A.isArray c v).Gives (o.isArray c v)
  isClassInstance : ∀ c v, (A.isClassInstance c v).Gives (o.isInstance c v)
  valueType : ∀ c v, (A.valueType c v).run.Gives (.ok (o.typeOf c v))
  members : ∀ c t v, (A.members c t v).run.Gives (.ok (o.members c t v))
  childTimeout : A.childTimeout.Gives o.childTimeout
  member : A.member = Adapter.firstMember A.members
  nullOrArray : ∀ c v, (o.isNull c v && o.isArray c v) = false
  nullOrInstance : ∀ c v, (o.isNull c v && o.isInstance c v) = false
  arrayOrInstance : ∀ c v, (o.isArray c v && o.isInstance c v) = false

namespace Outlook

variable (o : Outlook)

def value (r : Reference) : TargetValue :=
  match r.origin with
  | .slot s => o.slotValue r.context s
  | .literal v => v

def hasMembers (r : Reference) : Bool := o.isInstance r.context (o.value r)

def membersOf (r : Reference) : List Reference :=
  if o.hasMembers r then
    o.members { r.context with timeout := o.childTimeout } (o.typeOf r.context (o.value r))
      (o.value r)
  else []

/-- All that is in sight, in the order in which names are looked for. -/
def inSight : List Reference :=
  o.locals ++ o.parameters ++ o.receiver.toList.flatMap fun this => this :: o.membersOf this

end Outlook

/-- What is offered for a name that is being typed: the names that are found, each once and as it is
found, in the order of the names given; nothing, if none of them is found. -/
structure Offered (typed : List Char) (names : List String) (found : String → Option Reference)
    (answer : Option Completion) : Prop where
  none_iff : answer = none ↔ ∀ name, typed <+: name.toList → found name = none
  length : ∀ x, answer = some x → x.length = (String.ofList typed).utf8ByteSize
  names : ∀ x, answer = some x →
    x.items.map (·.name) = (names.filter (typed.isPrefixOf ·.toList)).eraseDups
  items : ∀ x, answer = some x → ∀ name flags, ⟨name, flags⟩ ∈ x.items ↔
    typed <+: name.toList ∧ ∃ r, found name = some r ∧ flags = r.flags

namespace Completion

variable (typed : List Char)

theorem select_concat (rs : List Reference) (r : Reference) : select typed (rs ++ [r]) =
    if typed.isPrefixOf r.name.toList && !(select typed rs).any (·.name == r.name) then
      select typed rs ++ [⟨r.name, r.flags⟩] else select typed rs := by
  rw [select, List.foldl_append]
  rfl

theorem exists_mem_select {rs : List Reference} {name : String} :
    (∃ item ∈ select typed rs, item.name = name) ↔
      typed <+: name.toList ∧ ∃ r ∈ rs, r.name = name := by
  induction rs using List.reverseRecOn with
  | nil => simp [select]
  | append_singleton rs r ih =>
      rw [select_concat]
      split
      next h =>
        have hstart : typed <+: r.name.toList := by simp_all
        simp only [List.mem_append, List.mem_singleton, or_and_right, exists_or, exists_eq_left, ih]
        grind
      next h =>
        have hknown : typed <+: r.name.toList → ∃ item ∈ select typed rs, item.name = r.name := by
          intro hstart
          simpa [List.isPrefixOf_iff_prefix.mpr hstart] using h
        simp only [List.mem_append, List.mem_singleton, or_and_right, exists_or, exists_eq_left, ih]
        grind

theorem findNamed_eq_none {rs : List Reference} {name : String} :
    findNamed name rs = none ↔ ∀ r ∈ rs, r.name ≠ name := by
  simp only [findNamed, List.find?_eq_none, beq_iff_eq]

/-- A reference is offered when its name starts as typed and none before it has that name. -/
theorem select_concat_of_new {rs : List Reference} {r : Reference}
    (hstart : typed <+: r.name.toList) (hnew : findNamed r.name rs = none) :
    select typed (rs ++ [r]) = select typed rs ++ [⟨r.name, r.flags⟩] := by
  have hnone : ¬ ∃ item ∈ select typed rs, item.name = r.name := by
    rw [exists_mem_select]
    exact fun ⟨_, r', hr', heq⟩ => findNamed_eq_none.mp hnew r' hr' heq
  rw [select_concat, if_pos]
  simpa [List.isPrefixOf_iff_prefix.mpr hstart] using hnone

theorem select_concat_of_old {rs : List Reference} {r : Reference}
    (hold : typed <+: r.name.toList → findNamed r.name rs ≠ none) :
    select typed (rs ++ [r]) = select typed rs := by
  rw [select_concat, if_neg]
  intro h
  obtain ⟨hstarts, hnew⟩ := Bool.and_eq_true_iff.mp h
  have hstart := List.isPrefixOf_iff_prefix.mp hstarts
  obtain ⟨item, hitem, hname⟩ : ∃ item ∈ select typed rs, item.name = r.name := by
    rw [exists_mem_select]
    refine ⟨hstart, ?_⟩
    simpa [findNamed_eq_none] using hold hstart
  have hnone : ∀ item ∈ select typed rs, item.name ≠ r.name := by simpa using hnew
  exact hnone item hitem hname

theorem mem_select {rs : List Reference} {name : String} {flags : ValueFlags} :
    ⟨name, flags⟩ ∈ select typed rs ↔
      typed <+: name.toList ∧ ∃ r, findNamed name rs = some r ∧ flags = r.flags := by
  induction rs using List.reverseRecOn with
  | nil => simp [select, findNamed]
  | append_singleton rs r ih =>
      have hfound : findNamed name (rs ++ [r]) =
          (findNamed name rs).or (if r.name = name then some r else none) := by
        simp only [findNamed, List.find?_append, List.find?_singleton, beq_iff_eq]
      rw [hfound]
      by_cases hoffered : typed <+: r.name.toList ∧ findNamed r.name rs = none
      · rw [select_concat_of_new typed hoffered.1 hoffered.2, List.mem_append, ih]
        by_cases hname : r.name = name
        · subst hname
          simp [hoffered.1, hoffered.2]
        · simp [hname, Ne.symm hname]
      · have hold : typed <+: r.name.toList → findNamed r.name rs ≠ none :=
          fun hstart hnew => hoffered ⟨hstart, hnew⟩
        rw [select_concat_of_old typed hold, ih]
        by_cases hname : r.name = name
        · subst hname
          refine and_congr_right fun hstart => ?_
          obtain ⟨r', hr'⟩ := Option.ne_none_iff_exists'.mp (hold hstart)
          simp [hr']
        · simp [hname]

theorem removeAll_of_mem {a : String} {l : List String} (h : a ∈ l) : [a].removeAll l = [] := by
  simpa [List.removeAll] using h

theorem removeAll_of_notMem {a : String} {l : List String} (h : a ∉ l) : [a].removeAll l = [a] := by
  simpa [List.removeAll] using h

/-- The names that start as typed, each where it comes first. -/
theorem names_select (rs : List Reference) : (select typed rs).map (·.name) =
    ((rs.map (·.name)).filter (typed.isPrefixOf ·.toList)).eraseDups := by
  induction rs using List.reverseRecOn with
  | nil => rfl
  | append_singleton rs r ih =>
      rw [List.map_append, List.filter_append, List.eraseDups_append, ← ih]
      cases hstarts : typed.isPrefixOf r.name.toList with
      | false =>
          have hold : ¬ typed <+: r.name.toList := by simp [← List.isPrefixOf_iff_prefix, hstarts]
          rw [select_concat_of_old typed fun h => absurd h hold]
          simp [hstarts, List.removeAll]
      | true =>
          have hstart := List.isPrefixOf_iff_prefix.mp hstarts
          have hmem : r.name ∈ (rs.map (·.name)).filter (typed.isPrefixOf ·.toList) ↔
              findNamed r.name rs ≠ none := by
            simp [findNamed_eq_none, hstart]
          simp only [List.map_cons, List.map_nil, List.filter_cons, hstarts, if_true,
            List.filter_nil]
          -- What is taken out of the appended name is just what is not offered again.
          by_cases hnew : findNamed r.name rs = none
          · rw [select_concat_of_new typed hstart hnew, removeAll_of_notMem (by simp [hmem, hnew])]
            simp [List.eraseDups_cons]
          · rw [select_concat_of_old typed fun _ => hnew, removeAll_of_mem (hmem.mpr hnew)]
            simp

def offer (rs : List Reference) : Option Completion :=
  if (select typed rs).isEmpty then none
  else some ⟨select typed rs, (String.ofList typed).utf8ByteSize⟩

theorem offer_eq_none {rs : List Reference} :
    offer typed rs = none ↔ ∀ name flags, ⟨name, flags⟩ ∉ select typed rs := by
  simp only [offer, ite_eq_left_iff, List.isEmpty_iff, reduceCtorEq, imp_false, not_not,
    List.eq_nil_iff_forall_not_mem]
  exact ⟨fun h name flags => h _, fun h item => h item.name item.flags⟩

theorem eq_of_offer {rs : List Reference} {x : Completion} (hx : offer typed rs = some x) :
    x = ⟨select typed rs, (String.ofList typed).utf8ByteSize⟩ := by
  unfold offer at hx
  split at hx
  · contradiction
  · exact (Option.some.inj hx).symm

/-- Names that are offered are found, and as they are found. -/
theorem offered_offer (rs : List Reference) :
    Offered typed (rs.map (·.name)) (findNamed · rs) (offer typed rs) where
  none_iff := by
    simp only [offer_eq_none, mem_select, not_and]
    refine forall_congr' fun name => ⟨fun h hstart => ?_, fun h flags hstart => ?_⟩
    · exact Option.eq_none_iff_forall_ne_some.mpr fun r hr => h r.flags hstart ⟨r, hr, rfl⟩
    · rw [h hstart]
      exact fun ⟨_, hr, _⟩ => nomatch hr
  length := fun x hx => by rw [eq_of_offer typed hx]
  names := fun x hx => by
    rw [eq_of_offer typed hx]
    exact names_select typed rs
  items := fun x hx name flags => by
    rw [eq_of_offer typed hx]
    exact mem_select typed

variable {typed}

theorem splitLast_eq {before : List Char} (htyped : typed.all Text.isWord)
    (hbefore : before.getLast?.all (!Text.isWord ·)) :
    splitLast (before ++ typed) = (before, typed) := by
  have htake : ((before ++ typed).reverse.takeWhile Text.isWord) = typed.reverse := by
    rw [List.reverse_append, List.takeWhile_append_of_pos (by simpa using htyped)]
    cases h : before.reverse with
    | nil => simp
    | cons x rest =>
        have hx : Text.isWord x = false := by
          simpa [← List.head?_reverse, h] using hbefore
        simp [hx]
  simp only [splitLast, htake, List.reverse_reverse]
  simp

theorem beforePoint_eq_some {s target : List Char} :
    beforePoint s = some target ↔ Text.trimEnd s = target ++ ['.'] := by
  have hreverse : Text.trimEnd s = target ++ ['.'] ↔
      (Text.trimEnd s).reverse = '.' :: target.reverse := by
    rw [← List.reverse_inj, List.reverse_append]
    rfl
  rw [hreverse, beforePoint]
  split
  next r h => simp [h, List.reverse_eq_iff]
  next h => exact ⟨nofun, fun heq => absurd heq (h _)⟩

variable {A : Adapter (Act σ)} {E : Evaluator (Act σ)} {ctx : EvaluationContext} {c : Scope}
  {w w' : World σ} {before : List Char}

theorem run_candidates_of_blank {target : List Char} (hpoint : beforePoint before = some target)
    (hblank : (Text.trim target).isEmpty) (c : Scope) (w : World σ) :
    run (candidates A E ctx before) c w = (.ok none, w) := by
  rw [candidates, hpoint]
  dsimp only
  rw [if_pos hblank]
  rfl

theorem run_complete {expression : String} {rs : Option (List Reference)}
    (hexpression : expression.toList = before ++ typed) (htyped : typed.all Text.isWord)
    (hbefore : before.getLast?.all (!Text.isWord ·))
    (hrun : run (candidates A E ctx before) c w = (.ok rs, w')) :
    run (complete A E ctx expression) c w = (.ok (rs.bind (offer typed)), w') := by
  rw [complete, hexpression, splitLast_eq htyped hbefore, run_bind, hrun]
  cases rs <;> rfl

end Completion

namespace Adapter.Shows

variable {A : Adapter (Act σ)} {ctx : EvaluationContext} {o : Outlook} (hA : A.Shows ctx o)
include hA

theorem value (r : Reference) : (r.value A).run.Gives (.ok (o.value r)) := by
  unfold Reference.value Outlook.value
  cases r.origin with
  | slot s => exact hA.readSlot r.context s
  | literal v => exact Gives.pure _

theorem childContext (ctx : EvaluationContext) :
    (DebugSession.childContext A ctx).Gives { ctx with timeout := o.childTimeout } :=
  hA.childTimeout.bind (Gives.pure _)

theorem memberReferences (r : Reference) :
    (r.memberReferences A).run.Gives (.ok (o.membersOf r)) := by
  refine (hA.value r).attempt ?_
  refine (hA.isClassInstance r.context (o.value r)).lift.attempt ?_
  unfold Outlook.membersOf Outlook.hasMembers
  cases o.isInstance r.context (o.value r) with
  | false => exact Gives.pure _
  | true =>
      refine (hA.valueType r.context (o.value r)).attempt ?_
      exact (hA.childContext r.context).lift.attempt (hA.members _ _ _)

theorem children (r : Reference) : (r.children A).Gives (o.membersOf r) :=
  (hA.memberReferences r).bind (Gives.pure _)

theorem visible : (Completion.visible A ctx).run.Gives (.ok o.inSight) := by
  refine hA.locals.attempt (hA.parameters.attempt (hA.receiver.attempt ?_))
  unfold Outlook.inSight
  cases o.receiver with
  | none =>
      simp only [Option.toList_none, List.flatMap_nil, List.append_nil]
      exact Gives.pure _
  | some this =>
      simp only [Option.toList_some, List.flatMap_cons, List.flatMap_nil, List.append_nil]
      exact (hA.children this).lift.attempt (Gives.pure _)

/-- A name is resolved to the first reference in sight that has it. -/
theorem resolveIdentifier (name : String) :
    (DebugSession.resolveIdentifier A ctx name).run.Gives
      (match findNamed name o.inSight with
        | some r => .ok r
        | none => .error (.unresolvedName name)) := by
  have hsight : findNamed name o.inSight =
      ((findNamed name o.locals).or (findNamed name o.parameters)).or
        (findNamed name (o.receiver.toList.flatMap fun this => this :: o.membersOf this)) := by
    simp only [findNamed, Outlook.inSight, List.find?_append]
  rw [hsight]
  refine hA.locals.attempt ?_
  cases findNamed name o.locals with
  | some r => exact Gives.pure _
  | none =>
      refine hA.parameters.attempt ?_
      cases findNamed name o.parameters with
      | some r => exact Gives.pure _
      | none =>
          refine hA.receiver.attempt ?_
          cases o.receiver with
          | none => exact Gives.pure _
          | some this =>
              simp only [Option.toList_some, List.flatMap_cons, List.flatMap_nil, List.append_nil,
                findNamed, List.find?_cons]
              cases hthis : this.name == name with
              | true => exact Gives.pure _
              | false =>
                  refine (hA.children this).lift.attempt ?_
                  dsimp only
                  cases (o.membersOf this).find? (·.name == name) with
                  | some r => exact Gives.pure _
                  | none => exact Gives.pure _

/-- The child of a class instance is the first of its members that has the name. -/
theorem child {r : Reference} (hr : o.hasMembers r = true) (name : String) :
    (r.child A name).run.Gives (.ok (findNamed name (o.membersOf r))) := by
  have hinstance : o.isInstance r.context (o.value r) = true := hr
  have hnull : o.isNull r.context (o.value r) = false := by
    simpa [hinstance] using hA.nullOrInstance r.context (o.value r)
  have harray : o.isArray r.context (o.value r) = false := by
    simpa [hinstance] using hA.arrayOrInstance r.context (o.value r)
  refine (hA.value r).attempt ((hA.isNull _ _).lift.attempt ?_)
  rw [hnull]
  refine (hA.isArray _ _).lift.attempt ?_
  rw [harray]
  refine (hA.isClassInstance _ _).lift.attempt ?_
  rw [hinstance]
  refine (hA.valueType _ _).attempt ((hA.childContext _).lift.attempt ?_)
  rw [hA.member, Outlook.membersOf, if_pos hr]
  exact (hA.members _ _ _).attempt (Gives.pure _)

theorem candidates_inSight {E : Evaluator (Act σ)} {before : List Char}
    (hpoint : Completion.beforePoint before = none) :
    (Completion.candidates A E ctx before).Gives (some o.inSight) := by
  rw [Completion.candidates, hpoint]
  exact hA.visible.bind (Gives.pure _)

theorem candidates_members {E : Evaluator (Act σ)} {before target : List Char} {c : Scope}
    {w w₁ : World σ} {out : Except EvalError Reference}
    (hpoint : Completion.beforePoint before = some target)
    (hblank : ¬ (Text.trim target).isEmpty)
    (hevaluate : run (E.evaluate ctx (String.ofList target) ctx.options).run c w = (.ok out, w₁)) :
    ∃ w₂, run (Completion.candidates A E ctx before) c w =
      (.ok (out.toOption.map o.membersOf), w₂) := by
  rw [Completion.candidates, hpoint]
  dsimp only
  rw [if_neg hblank, run_bind, hevaluate]
  cases out with
  | error e => exact ⟨w₁, rfl⟩
  | ok r =>
      have hmembers : (r.children A >>= fun rs => pure (some rs)).Gives (some (o.membersOf r)) :=
        (hA.children r).bind (Gives.pure _)
      exact hmembers c w₁

/-- Completion agrees with the resolution of names: in sight, or among the members of what precedes
a point, it offers what would be found. -/
theorem completes {E : Evaluator (Act σ)}
    (hE : ∀ target, (E.evaluate ctx target ctx.options).run.Returns)
    {expression : String} {before typed : List Char}
    (hexpression : expression.toList = before ++ typed) (htyped : typed.all Text.isWord)
    (hbefore : before.getLast?.all (!Text.isWord ·)) (c : Scope) (w : World σ) :
    ∃ answer w', run (complete A E ctx expression) c w = (.ok answer, w') ∧
      ((∀ target, Text.trimEnd before ≠ target ++ ['.']) → ∃ found,
        (∀ name, (DebugSession.resolveIdentifier A ctx name).run.Gives
          (match found name with
            | some r => .ok r
            | none => .error (.unresolvedName name))) ∧
        Offered typed (o.inSight.map (·.name)) found answer) ∧
      (∀ target, Text.trimEnd before = target ++ ['.'] →
        if (Text.trim target).isEmpty then answer = none
        else ∃ out w₁, run (E.evaluate ctx (String.ofList target) ctx.options).run c w =
            (.ok out, w₁) ∧
          match out with
          | .error _ => answer = none
          | .ok r =>
            if o.hasMembers r then ∃ found,
              (∀ name, (r.child A name).run.Gives (.ok (found name))) ∧
              Offered typed ((o.membersOf r).map (·.name)) found answer
            else answer = none) := by
  cases hpoint : Completion.beforePoint before with
  | none =>
      obtain ⟨w₁, hrun⟩ := hA.candidates_inSight (E := E) hpoint c w
      refine ⟨_, w₁, Completion.run_complete hexpression htyped hbefore hrun, ?_, ?_⟩
      · exact fun _ => ⟨_, hA.resolveIdentifier, Completion.offered_offer typed _⟩
      · intro target h
        rw [← Completion.beforePoint_eq_some, hpoint] at h
        cases h
  | some target =>
      have htarget := Completion.beforePoint_eq_some.mp hpoint
      by_cases hblank : (Text.trim target).isEmpty = true
      · have hrun : run (Completion.candidates A E ctx before) c w = (.ok none, w) :=
          Completion.run_candidates_of_blank hpoint hblank c w
        refine ⟨none, w, Completion.run_complete hexpression htyped hbefore hrun,
          fun h => absurd htarget (h target), fun target' htarget' => ?_⟩
        obtain rfl : target = target' := by simpa [htarget] using htarget'
        rw [if_pos hblank]
      · obtain ⟨out, w₁, hevaluate⟩ := hE (String.ofList target) c w
        obtain ⟨w₂, hrun⟩ := hA.candidates_members hpoint hblank hevaluate
        refine ⟨_, w₂, Completion.run_complete hexpression htyped hbefore hrun,
          fun h => absurd htarget (h target), fun target' htarget' => ?_⟩
        obtain rfl : target = target' := by simpa [htarget] using htarget'
        rw [if_neg hblank]
        refine ⟨out, w₁, hevaluate, ?_⟩
        cases out with
        | error e => rfl
        | ok r =>
            dsimp only
            cases hr : o.hasMembers r with
            | true => exact ⟨_, hA.child hr, Completion.offered_offer typed _⟩
            | false =>
                have hnone : o.membersOf r = [] := by rw [Outlook.membersOf, hr]; rfl
                exact congrArg (Completion.offer typed) hnone

section

variable (harray : ∀ c v is, (A.arrayElement c v is).run.Returns)
include harray

theorem child_returns (r : Reference) (name : String) : (r.child A name).run.Returns := by
  refine (hA.value r).returns.attempt fun v => ?_
  refine (hA.isNull r.context v).lift.returns.attempt fun isNull => ?_
  split
  · exact Returns.pure _
  refine (hA.isArray r.context v).lift.returns.attempt fun isArray => ?_
  split
  · refine Returns.attempt ?_ fun is => (harray _ _ is).attempt fun _ => Returns.pure _
    cases Reference.parseIndices name <;> exact Returns.pure _
  refine (hA.isClassInstance r.context v).lift.returns.attempt fun isInstance => ?_
  split
  · refine (hA.valueType r.context v).returns.attempt fun type => ?_
    refine (hA.childContext r.context).lift.returns.attempt fun ctx => ?_
    rw [hA.member]
    exact (hA.members ctx type v).returns.attempt fun _ => Returns.pure _
  · exact Returns.pure _

theorem followSteps_returns (expression : String) (steps : List String) (r : Reference) :
    (followSteps A expression r steps).run.Returns := by
  induction steps generalizing r with
  | nil => exact Returns.pure _
  | cons step rest ih =>
      refine (hA.child_returns harray r step).attempt fun found => ?_
      cases found with
      | some r' => exact ih r'
      | none => exact Returns.pure _

/-- When the calls of the adapter return, so does the built-in evaluator. -/
theorem evaluate_returns (hliteral : ∀ literal, (A.createLiteral ctx literal).run.Returns)
    (expression : String) : (NameResolving.evaluate A ctx expression).run.Returns := by
  unfold NameResolving.evaluate NameResolving.evaluateWith
  dsimp only
  split
  · exact (hliteral _).attempt fun _ => Returns.pure _
  · split
    · exact Returns.pure _
    · exact (hA.resolveIdentifier _).returns.attempt fun r => hA.followSteps_returns harray _ _ r

end

end Adapter.Shows

namespace Outlook

def adapter (o : Outlook) : Adapter (Act σ) where
  readSlot ctx s := pure (o.slotValue ctx s)
  slotType ctx s := pure (o.typeOf ctx (o.slotValue ctx s))
  writeSlot _ _ _ := throw .unsupportedExpression
  isNull ctx v := pure (o.isNull ctx v)
  isPrimitive _ _ := pure false
  isArray ctx v := pure (o.isArray ctx v)
  isClassInstance ctx v := pure (o.isInstance ctx v)
  valueType ctx v := pure (o.typeOf ctx v)
  typeName _ _ := pure ""
  locals _ := pure o.locals
  parameters _ := pure o.parameters
  receiver _ := pure o.receiver
  members ctx type v := pure (o.members ctx type v)
  member := Adapter.firstMember fun ctx type v => pure (o.members ctx type v)
  arrayElement := Adapter.noArrayElement
  cast _ v _ := pure v
  toLiteral _ _ := throw .unsupportedExpression
  createLiteral := Adapter.noLiterals
  createNode _ _ _ _ _ := throw .unsupportedExpression
  owedNode _ _ _ _ _ := throw .unsupportedExpression
  children _ _ _ _ := throw .unsupportedExpression
  callToString _ _ := throw .unsupportedExpression
  childTimeout := pure o.childTimeout
  awaitInvocations := pure ()

def named (name : String) (flags : ValueFlags) (slot : Nat) : Reference :=
  ⟨default, name, flags, .slot ⟨slot⟩⟩

def shadowed : Outlook where
  locals := [named "count" { localVariable := true } 1, named "cost" { localVariable := true } 2]
  parameters := [named "count" { parameter := true } 3, named "rate" { parameter := true } 4]
  receiver := some (named "this" {} 0)
  slotValue _ s := ⟨s.handle⟩
  isNull _ _ := false
  isArray _ _ := false
  isInstance _ v := v.handle == 0
  typeOf _ _ := default
  members _ _ _ := [named "coin" { field := true } 5, named "cost" { field := true } 6,
    named "coin" { property := true } 7]
  childTimeout := Adapter.defaultChildTimeout

theorem shadowed_shows : (shadowed.adapter : Adapter (Act σ)).Shows default shadowed where
  locals := Gives.pure _
  parameters := Gives.pure _
  receiver := Gives.pure _
  readSlot _ _ := Gives.pure _
  isNull _ _ := Gives.pure _
  isArray _ _ := Gives.pure _
  isClassInstance _ _ := Gives.pure _
  valueType _ _ := Gives.pure _
  members _ _ _ := Gives.pure _
  childTimeout := Gives.pure _
  member := rfl
  nullOrArray _ _ := rfl
  nullOrInstance _ _ := rfl
  arrayOrInstance _ _ := rfl

theorem shadowed_returns (target : String) :
    ((nameResolving (shadowed.adapter : Adapter (Act σ))).evaluate default target
      (default : EvaluationContext).options).run.Returns :=
  shadowed_shows.evaluate_returns (fun _ _ _ => Returns.pure _) (fun _ => Returns.pure _) target

def offersInSight : Completion :=
  ⟨[⟨"count", { localVariable := true }⟩, ⟨"cost", { localVariable := true }⟩,
    ⟨"coin", { field := true }⟩], 2⟩

def offersAmongMembers : Completion :=
  ⟨[⟨"coin", { field := true }⟩, ⟨"cost", { field := true }⟩], 2⟩

def inspector : Scope := { thread := .caller 0 }

def idle : World Unit := { host := () }

/-- The first member of a name is offered, and only when no local, parameter or receiver has it. -/
theorem shadowed_completes :
    (∃ found,
      (∀ name, (resolveIdentifier (shadowed.adapter : Adapter (Act Unit)) default name).run.Gives
        (match found name with
          | some r => .ok r
          | none => .error (.unresolvedName name))) ∧
      Offered "co".toList (shadowed.inSight.map (·.name)) found (some offersInSight)) ∧
    (∃ found,
      (∀ name, ((named "this" {} 0).child (shadowed.adapter : Adapter (Act Unit)) name).run.Gives
        (.ok (found name))) ∧
      Offered "co".toList ((shadowed.membersOf (named "this" {} 0)).map (·.name)) found
        (some offersAmongMembers)) := by
  constructor
  · have hexpression : "1 + co".toList = "1 + ".toList ++ "co".toList := by decide +kernel
    obtain ⟨answer, w', hrun, hsight, -⟩ := shadowed_shows.completes
      shadowed_returns hexpression (by decide +kernel) (by decide +kernel) inspector idle
    have hanswer : (run (complete shadowed.adapter (nameResolving shadowed.adapter) default
        "1 + co") inspector idle).1 = .ok (some offersInSight) := by decide +kernel
    rw [hrun] at hanswer
    obtain rfl : answer = some offersInSight := by simpa using hanswer
    refine hsight fun target htarget => ?_
    have hlast : (Text.trimEnd "1 + ".toList).getLast? = some '+' := by decide +kernel
    rw [htarget, List.getLast?_concat] at hlast
    exact absurd hlast (by decide)
  · have hexpression : "this . co".toList = "this . ".toList ++ "co".toList := by decide +kernel
    obtain ⟨answer, w', hrun, -, hmembers⟩ := shadowed_shows.completes
      shadowed_returns hexpression (by decide +kernel) (by decide +kernel) inspector idle
    have hanswer : (run (complete shadowed.adapter (nameResolving shadowed.adapter) default
        "this . co") inspector idle).1 = .ok (some offersAmongMembers) := by decide +kernel
    rw [hrun] at hanswer
    obtain rfl : answer = some offersAmongMembers := by simpa using hanswer
    have htarget := hmembers "this ".toList (by decide +kernel)
    rw [if_neg (by decide +kernel)] at htarget
    obtain ⟨out, w₁, hevaluate, hout⟩ := htarget
    have hthis : (run ((nameResolving shadowed.adapter).evaluate default
        (String.ofList "this ".toList) (default : EvaluationContext).options).run inspector
        idle).1 = .ok (.ok (named "this" {} 0)) := by decide +kernel
    rw [hevaluate] at hthis
    obtain rfl : out = .ok (named "this" {} 0) := by simpa using hthis
    exact hout

end Outlook

end DebugSession
