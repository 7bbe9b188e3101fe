import DebugSession.Proofs.Run
import DebugSession.Simulation.Host
import DebugSession.Value.Tree

namespace DebugSession.Elements

variable {α : Type} {cached : Array α} {length chunk index : Nat}

theorem step_of_some {x : α} (h : cached[index]? = some x) :
    step cached length chunk index = .cached x := by
  simp only [step, h]

theorem step_of_le (h : cached.size ≤ index) :
    step cached length chunk index =
      .fetch cached.size (min (index + chunk) length - cached.size) := by
  simp only [step, Array.getElem?_eq_none h]

theorem size_absorb_le (cached : Array α) (count : Nat) (fetched : List α) :
    (absorb cached count fetched).size ≤ cached.size + count := by
  simp only [absorb, Array.size_append, List.size_toArray, List.length_take]
  omega

theorem getElem?_absorb {count : Nat} {fetched : List α} {i : Nat} {x : α}
    (h : (absorb cached count fetched)[i]? = some x) :
    cached[i]? = some x ∨ ∃ k, i = cached.size + k ∧ fetched[k]? = some x := by
  rw [absorb] at h
  by_cases hi : i < cached.size
  · rw [Array.getElem?_append_left hi] at h
    exact .inl h
  · rw [Array.getElem?_append_right (by omega), List.getElem?_toArray, List.getElem?_take] at h
    split at h
    · exact .inr ⟨i - cached.size, by omega, h⟩
    · cases h

end DebugSession.Elements

namespace DebugSession

open Act NodeId

variable {σ : Type}

inductive ArrayCall
  | element (index : Nat)
  | children
  | chunk (size : Nat)

inductive ArrayAnswer
  | element (r : Except ValueError NodeId)
  | children (ids : List NodeId)
  | done

namespace ArrayCall

def perform (h : Host σ) (id : NodeId) : ArrayCall → Act σ ArrayAnswer
  | element index => return .element (← id.element h index)
  | children => return .children (← id.children h)
  | chunk size => do
    modifyNode id (·.withChunk size)
    return .done

def target (length : Nat) : ArrayCall → Nat
  | element index => index
  | _ => length - 1

end ArrayCall

/-- An array node, with which nodes show the element of an index and where its source notes the
requests it is sent. Whether a node shows an element does not depend on what it keeps itself. -/
structure Listing (σ : Type) where
  id : NodeId
  source : ChildSource
  path : ValuePath
  typeName : String
  length : Nat
  length_lt : length < UInt64.size
  shows : Nat → Node → Prop
  requests : σ → List ChildRange

namespace Listing

variable (A : Listing σ) (h : Host σ)

def entry (children : Option (Array NodeId)) (chunk : Nat) : Node :=
  { Node.array (some A.source) A.path A.typeName A.length children with chunk }

def ask (start count : Nat) : Act σ (Except EvalError (List NodeId)) :=
  (A.source.children h A.path (.range start count)).run

def Shows (w : World σ) (index : Nat) (x : NodeId) : Prop :=
  ∃ n, w.nodes[x.index]? = some n ∧ A.shows index { n with children := none, chunk := 0 }

/-- Every request is answered, with an error or with the elements from `start` on, however many.
The source may do what it likes otherwise, but leaves the node and the elements as they are. -/
def Served : Prop :=
  ∀ start count c w, ∃ r w', run (A.ask h start count) c w = (.ok r, w') ∧
    A.requests w'.host = A.requests w.host ++ [.range start count] ∧
    (∀ items, r = .ok items → ∀ (k : Nat) x, items[k]? = some x → A.Shows w' (start + k) x) ∧
    (∀ i x, A.Shows w i x → A.Shows w' i x) ∧
    ∀ children chunk, 1 ≤ chunk → w.nodes[A.id.index]? = some (A.entry children chunk) →
      ∃ chunk', 1 ≤ chunk' ∧ w'.nodes[A.id.index]? = some (A.entry children chunk')

def current (w : World σ) : Node := w.nodes.getD A.id.index default

def kept (w : World σ) : Array NodeId := (A.current w).children.getD #[]

def Failed (w : World σ) (index : Nat) (x : NodeId) : Prop :=
  ∃ message, w.nodes[x.index]? = some (.error (elementName index) message)

/-- The array node is as it was made, but for its chunk and for elements kept from the front on. -/
structure Faithful (w : World σ) : Prop where
  entry : w.nodes[A.id.index]? = some (A.entry (A.current w).children (A.current w).chunk)
  chunk_pos : 1 ≤ (A.current w).chunk
  size_le : (A.kept w).size ≤ A.length
  shows : ∀ (i : Nat) x, (A.kept w)[i]? = some x → A.Shows w i x

variable {A h} {c : Scope} {w w' : World σ} {children : Option (Array NodeId)} {chunk : Nat}

theorem current_eq {n : Node} (hn : w.nodes[A.id.index]? = some n) : A.current w = n := by
  rw [current, Array.getD_eq_getD_getElem?, hn]
  rfl

theorem faithful_of_entry (hentry : w.nodes[A.id.index]? = some (A.entry children chunk))
    (hchunk : 1 ≤ chunk) (hsize : (children.getD #[]).size ≤ A.length)
    (hshows : ∀ (i : Nat) x, (children.getD #[])[i]? = some x → A.Shows w i x) :
    A.Faithful w ∧ A.kept w = children.getD #[] := by
  have hcurrent := current_eq hentry
  have hkept : A.kept w = children.getD #[] := by
    rw [kept, hcurrent]
    rfl
  refine ⟨⟨?_, ?_, ?_, ?_⟩, hkept⟩
  · rw [hcurrent]
    exact hentry
  · rw [hcurrent]
    exact hchunk
  · rw [hkept]
    exact hsize
  · rw [hkept]
    exact hshows

theorem Faithful.current (hw : A.Faithful w) :
    A.current w = A.entry (A.current w).children (A.current w).chunk :=
  current_eq hw.entry

def extended (w : World σ) (n : Node) : World σ := { w with nodes := w.nodes.push n }

theorem getElem?_extended {n : Node} {i : Nat} (hn : w.nodes[i]? = some n) (m : Node) :
    (extended w m).nodes[i]? = some n := by
  obtain ⟨hlt, rfl⟩ := Array.getElem?_eq_some_iff.mp hn
  rw [extended, Array.getElem?_push_lt hlt]

theorem Shows.extended {i : Nat} {x : NodeId} (hx : A.Shows w i x) (m : Node) :
    A.Shows (extended w m) i x := by
  obtain ⟨n, hn, hshows⟩ := hx
  exact ⟨n, getElem?_extended hn m, hshows⟩

theorem Shows.modified {i : Nat} {x : NodeId} (hx : A.Shows w i x) (id : NodeId) {f : Node → Node}
    (hf : ∀ n, { f n with children := none, chunk := 0 } = { n with children := none, chunk := 0 }) :
    A.Shows { w with nodes := w.nodes.modify id.index f } i x := by
  obtain ⟨n, hn, hshows⟩ := hx
  by_cases heq : id.index = x.index
  · refine ⟨f n, ?_, ?_⟩
    · rw [Array.getElem?_modify, if_pos heq, hn]
      rfl
    · rw [hf]
      exact hshows
  · refine ⟨n, ?_, hshows⟩
    rw [Array.getElem?_modify, if_neg heq]
    exact hn

theorem failed_extended (w : World σ) (index : Nat) (message : String) :
    Failed (extended w (.error (elementName index) message)) index ⟨w.nodes.size⟩ :=
  ⟨message, Array.getElem?_push_size⟩

variable (A) in
def withKept (w : World σ) (cs : Array NodeId) : World σ :=
  { w with nodes := w.nodes.modify A.id.index ({ · with children := some cs }) }

theorem run_keep (cs : Array NodeId) (c : Scope) (w : World σ) :
    run (A.id.keep cs) c w = (.ok (), A.withKept w cs) := rfl

theorem Shows.withKept {i : Nat} {x : NodeId} (hx : A.Shows w i x) (cs : Array NodeId) :
    A.Shows (A.withKept w cs) i x :=
  hx.modified A.id fun _ => rfl

theorem entry_withKept (hentry : w.nodes[A.id.index]? = some (A.entry children chunk))
    (cs : Array NodeId) :
    (A.withKept w cs).nodes[A.id.index]? = some (A.entry (some cs) chunk) := by
  rw [withKept, Array.getElem?_modify, if_pos rfl, hentry]
  rfl

theorem run_fetchElement (hw : A.Faithful w) (i start count : Nat) (c : Scope) :
    run (A.id.fetchElement h (A.current w) i start count) c w =
      match run (A.ask h start count) c w with
      | (.error p, w') => (.error p, w')
      | (.ok (.error e), w') =>
        (.ok ⟨w'.nodes.size⟩, extended w' (.error (elementName i) e.message))
      | (.ok (.ok items), w') =>
        let w' := A.withKept w' (Elements.absorb (A.kept w) count items)
        match (Elements.absorb (A.kept w) count items)[i]? with
        | some x => (.ok x, w')
        | none => (.ok ⟨w'.nodes.size⟩, extended w' (.error (elementName i)
            "The debugger returned fewer array elements than requested")) := by
  have hfetch : fetch h (A.current w) (.range start count) = A.ask h start count := by
    rw [hw.current]
    rfl
  rw [fetchElement, run_bind, hfetch]
  rcases run (A.ask h start count) c w with ⟨p | e | items, w'⟩
  · rfl
  · rfl
  · dsimp only
    rw [run_bind, run_keep, ← kept]
    cases (Elements.absorb (A.kept w) count items)[i]? <;> rfl

theorem run_element (hw : A.Faithful w) (i : Nat) (c : Scope) :
    run (A.id.element h i) c w =
      if A.length ≤ i then (.ok (.error (.indexOutOfRange i A.length)), w)
      else match Elements.step (A.kept w) A.length (A.current w).chunk i with
        | .cached x => (.ok (.ok x), w)
        | .fetch start count =>
          match run (A.id.fetchElement h (A.current w) i start count) c w with
          | (.ok x, w') => (.ok (.ok x), w')
          | (.error p, w') => (.error p, w') := by
  have harray : (A.current w).isArray = true := by
    rw [hw.current]
    rfl
  have hlength : (A.current w).length = A.length := by
    rw [hw.current]
    rfl
  have hnode : run (Act.node A.id) c w = (.ok (A.current w), w) := rfl
  rw [element, run_bind, hnode]
  simp only [harray, hlength, Bool.not_true, Bool.false_eq_true, if_false]
  by_cases hi : A.length ≤ i
  · rw [if_pos hi, if_pos hi]
    rfl
  · rw [if_neg hi, if_neg hi, ← kept]
    cases Elements.step (A.kept w) A.length (A.current w).chunk i with
    | cached x => rfl
    | fetch start count =>
      dsimp only
      rw [run_bind]
      rcases run (A.id.fetchElement h (A.current w) i start count) c w with ⟨p | x, w'⟩ <;> rfl

/-- What is left of the world by a call that wants the elements up to `target`. -/
structure Progress (A : Listing σ) (h : Host σ) (c : Scope) (target : Nat) (w w' : World σ) :
    Prop where
  faithful : A.Faithful w'
  grows : (A.kept w).toList <+: (A.kept w').toList
  requests : A.requests w'.host = A.requests w.host ∧ A.kept w' = A.kept w ∨ ∃ count,
    A.requests w'.host = A.requests w.host ++ [.range (A.kept w).size count] ∧ 1 ≤ count ∧
    (A.kept w).size + count ≤ A.length ∧
    (A.kept w).size + count =
      min (min (target + (A.current w).chunk) (UInt64.size - 1)) A.length ∧
    ∀ e w'', run (A.ask h (A.kept w).size count) c w = (.ok (.error e), w'') →
      A.kept w' = A.kept w

theorem Progress.refl (hw : A.Faithful w) (target : Nat) : A.Progress h c target w w where
  faithful := hw
  grows := List.prefix_refl _
  requests := .inl ⟨rfl, rfl⟩

theorem shows_absorb (hkept : ∀ (i : Nat) x, (A.kept w)[i]? = some x → A.Shows w' i x)
    {items : List NodeId} (count : Nat)
    (hitems : ∀ (k : Nat) x, items[k]? = some x → A.Shows w' ((A.kept w).size + k) x) (i : Nat)
    (x : NodeId) (hx : (Elements.absorb (A.kept w) count items)[i]? = some x) : A.Shows w' i x := by
  obtain hold | ⟨k, rfl, hk⟩ := Elements.getElem?_absorb hx
  · exact hkept i x hold
  · exact hitems k x hk

/-- One more node is no matter of the array. -/
theorem Faithful.extended (hw : A.Faithful w) (m : Node) :
    A.Faithful (extended w m) ∧ A.kept (Listing.extended w m) = A.kept w :=
  faithful_of_entry (getElem?_extended hw.entry m) hw.chunk_pos hw.size_le
    fun i x hx => (hw.shows i x hx).extended m

theorem Progress.extended {target : Nat} (h' : A.Progress h c target w w') (m : Node) :
    A.Progress h c target w (extended w' m) := by
  obtain ⟨hfaithful, hkept⟩ := h'.faithful.extended m
  refine ⟨hfaithful, ?_, ?_⟩
  · rw [hkept]
    exact h'.grows
  · rw [hkept]
    exact h'.requests

structure Asked (A : Listing σ) (h : Host σ) (c : Scope) (target count : Nat)
    (r : Except EvalError (List NodeId)) (w w' : World σ) : Prop where
  run : run (A.ask h (A.kept w).size count) c w = (.ok r, w')
  requests : A.requests w'.host = A.requests w.host ++ [.range (A.kept w).size count]
  count_pos : 1 ≤ count
  in_bounds : (A.kept w).size + count ≤ A.length
  sum : (A.kept w).size + count =
    min (min (target + (A.current w).chunk) (UInt64.size - 1)) A.length
  shows : ∀ (i : Nat) x, (A.kept w)[i]? = some x → A.Shows w' i x
  items : ∀ items, r = .ok items → ∀ (k : Nat) x, items[k]? = some x →
    A.Shows w' ((A.kept w).size + k) x
  entry : ∃ chunk, 1 ≤ chunk ∧
    w'.nodes[A.id.index]? = some (A.entry (A.current w).children chunk)

theorem exists_asked (hA : A.Served h) (hw : A.Faithful w) {i : Nat}
    (hlow : (A.kept w).size ≤ i) (hhigh : i < A.length) (c : Scope) :
    ∃ r w', A.Asked h c i (min (i + (A.current w).chunk) A.length - (A.kept w).size) r w w' := by
  have hlength := A.length_lt
  have hpos := hw.chunk_pos
  generalize hcount : min (i + (A.current w).chunk) A.length - (A.kept w).size = count
  have hsum : (A.kept w).size + count =
      min (min (i + (A.current w).chunk) (UInt64.size - 1)) A.length := by
    simp only [UInt64.size] at hlength ⊢
    omega
  obtain ⟨r, w', hrun, hrequests, hitems, hlasts, hleaves⟩ := hA (A.kept w).size count c w
  exact ⟨r, w', hrun, hrequests, by omega, by omega, hsum,
    fun j x hx => hlasts j x (hw.shows j x hx), hitems, hleaves _ _ hw.chunk_pos hw.entry⟩

theorem Asked.failed (hw : A.Faithful w) {i count : Nat} {e : EvalError}
    (hasked : A.Asked h c i count (.error e) w w') :
    A.Progress h c i w w' ∧ A.kept w' = A.kept w := by
  obtain ⟨chunk, hchunk, hentry⟩ := hasked.entry
  obtain ⟨hfaithful, hkept⟩ := faithful_of_entry hentry hchunk hw.size_le hasked.shows
  refine ⟨⟨hfaithful, ?_, .inr ⟨count, hasked.requests, hasked.count_pos, hasked.in_bounds,
    hasked.sum, fun _ _ _ => hkept⟩⟩, hkept⟩
  rw [hkept]
  exact List.prefix_refl _

theorem Asked.answered {i count : Nat} {items : List NodeId}
    (hasked : A.Asked h c i count (.ok items) w w') :
    A.Progress h c i w (A.withKept w' (Elements.absorb (A.kept w) count items)) ∧
      A.kept (A.withKept w' (Elements.absorb (A.kept w) count items)) =
        Elements.absorb (A.kept w) count items := by
  obtain ⟨chunk, hchunk, hentry⟩ := hasked.entry
  have hsize := Elements.size_absorb_le (A.kept w) count items
  obtain ⟨hfaithful, hkept⟩ := faithful_of_entry
    (entry_withKept hentry (Elements.absorb (A.kept w) count items)) hchunk
    (Nat.le_trans hsize hasked.in_bounds) fun j x hx =>
      (shows_absorb hasked.shows count (hasked.items items rfl) j x hx).withKept _
  refine ⟨⟨hfaithful, ?_, .inr ⟨count, hasked.requests, hasked.count_pos, hasked.in_bounds,
    hasked.sum, fun e w₁ herror => ?_⟩⟩, hkept⟩
  · rw [hkept, Option.getD_some, Elements.absorb, Array.toList_append]
    exact List.prefix_append _ _
  · rw [hasked.run] at herror
    cases herror

/-- A node that is made now is none of the elements. -/
theorem Faithful.fresh (hw : A.Faithful w) (m : Node) :
    (⟨w.nodes.size⟩ : NodeId) ∉ (A.kept (Listing.extended w m)).toList := by
  rw [(hw.extended m).2]
  intro hmem
  obtain ⟨i, hi⟩ := List.mem_iff_getElem?.mp hmem
  obtain ⟨n, hn, -⟩ := hw.shows i _ (Array.getElem?_toList ▸ hi)
  exact Nat.lt_irrefl _ (Array.getElem?_eq_some_iff.mp hn).1

variable (A) in
def keptAfter (w : World σ) (count : Nat) : Except EvalError (List NodeId) → Array NodeId
  | .ok items => A.kept w ++ (items.take count).toArray
  | .error _ => A.kept w

/-- A new error stands for the element if the answer does not reach it. -/
theorem Asked.gives (hw : A.Faithful w) {i count : Nat} {r : Except EvalError (List NodeId)}
    (hlow : (A.kept w).size ≤ i) (hasked : A.Asked h c i count r w w') :
    ∃ x w'', Act.run (A.id.fetchElement h (A.current w) i (A.kept w).size count) c w =
        (.ok x, w'') ∧ w''.host = w'.host ∧ A.Progress h c i w w'' ∧
      A.kept w'' = A.keptAfter w count r ∧
      ((A.kept w'')[i]? = some x ∨
        Failed w'' i x ∧ (A.kept w'').size ≤ i ∧ x ∉ (A.kept w'').toList) := by
  rw [run_fetchElement hw, hasked.run]
  cases r with
  | error e =>
    obtain ⟨hdone, hkept⟩ := hasked.failed hw
    have hsame := (hdone.faithful.extended (.error (elementName i) e.message)).2.trans hkept
    refine ⟨_, _, rfl, rfl, hdone.extended _, hsame,
      .inr ⟨failed_extended w' i e.message, ?_, hdone.faithful.fresh _⟩⟩
    rw [hsame]
    exact hlow
  | ok items =>
    obtain ⟨hdone, hkept⟩ := hasked.answered
    have habsorb : A.keptAfter w count (.ok items) = Elements.absorb (A.kept w) count items := rfl
    rw [habsorb]
    dsimp only
    generalize Elements.absorb (A.kept w) _ items = cs at hdone hkept ⊢
    cases hx : cs[i]? with
    | some x =>
      refine ⟨x, _, rfl, rfl, hdone, hkept, .inl ?_⟩
      rw [hkept]
      exact hx
    | none =>
      refine ⟨_, _, rfl, rfl, hdone.extended _, (hdone.faithful.extended _).2.trans hkept,
        .inr ⟨failed_extended _ i _, ?_, hdone.faithful.fresh _⟩⟩
      rw [(hdone.faithful.extended _).2, hkept]
      exact Array.getElem?_eq_none_iff.mp hx

theorem fetch_spec (hA : A.Served h) (hw : A.Faithful w) {i : Nat} (hlow : (A.kept w).size ≤ i)
    (hhigh : i < A.length) (c : Scope) :
    ∃ x w', run (A.id.fetchElement h (A.current w) i (A.kept w).size
        (min (i + (A.current w).chunk) A.length - (A.kept w).size)) c w = (.ok x, w') ∧
      A.Progress h c i w w' ∧
      ((A.kept w')[i]? = some x ∨ Failed w' i x ∧ (A.kept w').size ≤ i) := by
  obtain ⟨r, w₁, hasked⟩ := exists_asked hA hw hlow hhigh c
  obtain ⟨x, w', hrun, -, hprogress, -, hx⟩ := hasked.gives hw hlow
  exact ⟨x, w', hrun, hprogress, hx.imp_right fun hx => ⟨hx.1, hx.2.1⟩⟩

theorem element_spec (hA : A.Served h) (hw : A.Faithful w) {i : Nat} (hi : i < A.length)
    (c : Scope) :
    ∃ x w', run (A.id.element h i) c w = (.ok (.ok x), w') ∧ A.Progress h c i w w' ∧
      ((A.kept w')[i]? = some x ∨ Failed w' i x ∧ (A.kept w').size ≤ i) ∧
      (i < (A.kept w).size → w' = w ∧ (A.kept w)[i]? = some x) := by
  rw [run_element hw, if_neg (by omega)]
  by_cases hkept : i < (A.kept w).size
  · have hx : (A.kept w)[i]? = some (A.kept w)[i] := Array.getElem?_eq_getElem hkept
    rw [Elements.step_of_some hx]
    exact ⟨_, w, rfl, .refl hw i, .inl hx, fun _ => ⟨rfl, hx⟩⟩
  · rw [Elements.step_of_le (Nat.le_of_not_lt hkept)]
    obtain ⟨x, w', hrun, hprogress, hanswer⟩ := fetch_spec hA hw (Nat.le_of_not_lt hkept) hi c
    dsimp only
    rw [hrun]
    exact ⟨x, w', rfl, hprogress, hanswer, fun hlt => absurd hlt hkept⟩

theorem run_children (hw : A.Faithful w) (c : Scope) :
    run (A.id.children h) c w = run (A.id.elements h (A.current w)) c w := by
  have hnode : run (Act.node A.id) c w = (.ok (A.current w), w) := rfl
  have harray : (A.current w).isArray = true := by
    rw [hw.current]
    rfl
  rw [NodeId.children, run_bind, hnode]
  simp only [harray, if_true]

theorem run_elements_of_pos {n : Node} (hpos : 0 < n.length) {x : NodeId}
    (hrun : run (A.id.element h (n.length - 1)) c w = (.ok (.ok x), w')) :
    run (A.id.elements h n) c w =
      if (w'.nodes.getD x.index default).isError && (A.kept w').size ≤ n.length - 1 then
        (.ok [x], w')
      else (.ok (A.kept w').toList, w') := by
  rw [elements]
  simp only [if_pos hpos]
  rw [run_bind, hrun]
  change run (if ((w'.nodes.getD x.index default).isError &&
    decide ((A.kept w').size ≤ n.length - 1)) = true then pure [x] else _) c w' = _
  split <;> rfl

/-- All elements are there in the end, or one error stands for them. -/
theorem children_spec (hA : A.Served h) (hw : A.Faithful w) (c : Scope) :
    ∃ ids w', run (A.id.children h) c w = (.ok ids, w') ∧ A.Progress h c (A.length - 1) w w' ∧
      (ids = (A.kept w').toList ∧ (A.kept w').size = A.length ∨
        ∃ x, ids = [x] ∧ Failed w' (A.length - 1) x) := by
  have hlength : (A.current w).length = A.length := by
    rw [hw.current]
    rfl
  rw [run_children hw]
  by_cases hpos : 0 < A.length
  · obtain ⟨x, w', hrun, hprogress, hanswer, -⟩ :=
      element_spec hA hw (i := A.length - 1) (by omega) c
    rw [run_elements_of_pos (by omega) (by rw [hlength]; exact hrun), hlength]
    obtain hx | ⟨⟨message, hx⟩, hsize⟩ := hanswer
    · have hlt := (Array.getElem?_eq_some_iff.mp hx).1
      have hle := hprogress.faithful.size_le
      rw [if_neg (by simp; omega)]
      exact ⟨_, w', rfl, hprogress, .inl ⟨rfl, by omega⟩⟩
    · have herror : (w'.nodes.getD x.index default).isError = true := by
        rw [Array.getD_eq_getD_getElem?, hx]
        rfl
      rw [herror, if_pos (by simpa using hsize)]
      exact ⟨_, w', rfl, hprogress, .inr ⟨x, rfl, message, hx⟩⟩
  · have hsize := hw.size_le
    have hzero : ¬0 < (A.current w).length := by omega
    refine ⟨(A.kept w).toList, w, ?_, .refl hw _, .inl ⟨rfl, by omega⟩⟩
    rw [elements]
    simp only [if_neg hzero]
    rfl

theorem chunk_spec (hw : A.Faithful w) (size target : Nat) (c : Scope) :
    ∃ w', run (modifyNode A.id (·.withChunk size)) c w = (.ok (), w') ∧
      A.Progress h c target w w' := by
  have hentry : ({ w with nodes := w.nodes.modify A.id.index (·.withChunk size) } :
      World σ).nodes[A.id.index]? = some (A.entry (A.current w).children (max size 1)) := by
    rw [Array.getElem?_modify, if_pos rfl, hw.entry]
    rfl
  obtain ⟨hfaithful, hkept⟩ := faithful_of_entry hentry (Nat.le_max_right size 1) hw.size_le
    fun i x hx => (hw.shows i x hx).modified A.id fun _ => rfl
  refine ⟨_, rfl, hfaithful, ?_, .inl ⟨rfl, hkept⟩⟩
  rw [hkept]
  exact List.prefix_refl _

structure Truthful (A : Listing σ) (h : Host σ) (c : Scope) (call : ArrayCall) (w : World σ)
    (answer : ArrayAnswer) (w' : World σ) : Prop where
  progress : A.Progress h c (call.target A.length) w w'
  kept : ∀ i, call = .element i → i < (A.kept w).size →
    w' = w ∧ ∃ x, (A.kept w)[i]? = some x ∧ answer = .element (.ok x)
  element : ∀ i, call = .element i → i < A.length →
    ∃ x, answer = .element (.ok x) ∧ (A.Shows w' i x ∨ Failed w' i x)
  outOfRange : ∀ i, call = .element i → A.length ≤ i →
    w' = w ∧ answer = .element (.error (.indexOutOfRange i A.length))
  children : call = .children → ∃ ids, answer = .children ids ∧
    (ids = (A.kept w').toList ∧ (A.kept w').size = A.length ∨
      ∃ x, ids = [x] ∧ Failed w' (A.length - 1) x)

theorem perform_spec (hA : A.Served h) (hw : A.Faithful w) (c : Scope) (call : ArrayCall) :
    ∃ answer w', run (call.perform h A.id) c w = (.ok answer, w') ∧
      A.Truthful h c call w answer w' := by
  cases call with
  | element i =>
    rw [ArrayCall.perform, run_bind]
    by_cases hi : i < A.length
    · obtain ⟨x, w', hrun, hprogress, hanswer, hcached⟩ := element_spec hA hw hi c
      rw [hrun]
      refine ⟨.element (.ok x), w', rfl, hprogress, ?_, ?_, ?_, nofun⟩
      · rintro _ ⟨⟩ hlt
        exact ⟨(hcached hlt).1, x, (hcached hlt).2, rfl⟩
      · rintro _ ⟨⟩ -
        exact ⟨x, rfl, hanswer.imp (hprogress.faithful.shows i x) And.left⟩
      · rintro _ ⟨⟩ hle
        omega
    · have hsize := hw.size_le
      rw [run_element hw, if_pos (by omega)]
      refine ⟨_, w, rfl, .refl hw _, ?_, ?_, ?_, nofun⟩
      · rintro _ ⟨⟩ hlt
        omega
      · rintro _ ⟨⟩ hlt
        exact absurd hlt hi
      · rintro _ ⟨⟩ -
        exact ⟨rfl, rfl⟩
  | children =>
    obtain ⟨ids, w', hrun, hprogress, hids⟩ := children_spec hA hw c
    rw [ArrayCall.perform, run_bind, hrun]
    exact ⟨.children ids, w', rfl, hprogress, nofun, nofun, nofun, fun _ => ⟨ids, rfl, hids⟩⟩
  | chunk size =>
    obtain ⟨w', hrun, hprogress⟩ := chunk_spec (h := h) hw size (A.length - 1) c
    rw [ArrayCall.perform, run_bind, hrun]
    exact ⟨.done, w', rfl, hprogress, nofun, nofun, nofun, nofun⟩

def after (A : Listing σ) (h : Host σ) (calls : List (Scope × ArrayCall)) (w : World σ) : World σ :=
  calls.foldl (fun w k => (run (k.2.perform h A.id) k.1 w).2) w

theorem Faithful.after (hA : A.Served h) (hw : A.Faithful w) (calls : List (Scope × ArrayCall)) :
    A.Faithful (A.after h calls w) := by
  induction calls generalizing w with
  | nil => exact hw
  | cons k calls ih =>
    obtain ⟨answer, w', hrun, htruthful⟩ := perform_spec hA hw k.1 k.2
    rw [Listing.after, List.foldl_cons, hrun]
    exact ih htruthful.progress.faithful

/-- From a node that keeps nothing on, whatever was called and answered so far: what is kept are the
elements before the count, and the next call is answered, by an element, by an error that says for
which, or as out of range, never asks for what is kept, and loses nothing of it. -/
theorem arrays_never_lie (hA : A.Served h)
    (hfresh : w.nodes[A.id.index]? =
      some (.array (some A.source) A.path A.typeName A.length none))
    (calls : List (Scope × ArrayCall)) (c : Scope) (call : ArrayCall) :
    A.Faithful (A.after h calls w) ∧
      (A.current (A.after h calls w)).cachedChildCount = (A.kept (A.after h calls w)).size ∧
      ∃ answer w', run (call.perform h A.id) c (A.after h calls w) = (.ok answer, w') ∧
        (A.kept (A.after h calls w)).size ≤ (A.kept w').size ∧
        A.Truthful h c call (A.after h calls w) answer w' := by
  have hentry : w.nodes[A.id.index]? = some (A.entry none 50) := hfresh
  obtain ⟨hfaithful, -⟩ := faithful_of_entry hentry (by decide) (Nat.zero_le _) (by simp)
  have hw := hfaithful.after hA calls
  obtain ⟨answer, w', hrun, htruthful⟩ := perform_spec hA hw c call
  refine ⟨hw, rfl, answer, w', hrun, ?_, htruthful⟩
  simpa using htruthful.progress.grows.length_le

end Listing

namespace Simulation

open Listing

def noting : Surroundings (List ChildRange) :=
  { (default : Surroundings (List ChildRange)) with
    report := fun
      | .askedChildren _ range => modifyHost fun s => (s.1, s.2 ++ [range])
      | _ => return }

def numberedNode (path : ValuePath) (i : Nat) : Node :=
  .primitive none (path.append s!"f{i}") "int" (toString i) false

def numberedArray (length : Nat) (hlength : length < UInt64.size) :
    Listing (Memory × List ChildRange) where
  id := ⟨0⟩
  source := .external ⟨0⟩
  path := .root "n"
  typeName := "int[]"
  length := length
  length_lt := hlength
  shows i n := n = { numberedNode (.root "n") i with chunk := 0 }
  requests := (·.2)

theorem run_numberedChildren {ρ : Type} (path : ValuePath) (is : List Nat) (c : Scope)
    (w : World (Memory × ρ)) :
    run (is.mapM (numberedChild path)) c w =
      (.ok ((List.range is.length).map fun k => ⟨w.nodes.size + k⟩),
        { w with nodes := w.nodes ++ (is.map (numberedNode path)).toArray }) := by
  induction is generalizing w with
  | nil =>
    change ((.ok [], w) : Except Panic (List NodeId) × World (Memory × ρ)) = _
    simp
  | cons i is ih =>
    have hchild : run (numberedChild path i) c w =
        (.ok ⟨w.nodes.size⟩, extended w (numberedNode path i)) := rfl
    rw [List.mapM_cons, run_bind, hchild]
    dsimp only
    rw [run_bind, ih]
    change ((.ok (_ :: _), _) : Except Panic (List NodeId) × World (Memory × ρ)) = _
    simp [extended, List.range_succ_eq_map, Function.comp_def, Nat.add_assoc, Nat.add_comm 1]

theorem getElem?_answered {start count supply : Nat} {surplus : Int} {k i : Nat}
    (h : (answered (.range start count) supply surplus)[k]? = some i) : i = start + k := by
  rw [answered, List.getElem?_drop] at h
  obtain ⟨_, hi⟩ := List.getElem?_eq_some_iff.mp h
  rw [← hi, List.getElem_range]

theorem run_check {ρ : Type} (operation : String) (c : Scope) (w : World (Memory × ρ)) :
    run (check operation).run c w = (.ok (match w.host.1.faults.lookup operation with
      | some e => .error e
      | none => .ok ()), w) := by
  have hmemory : run (memory (ρ := ρ)) c w = (.ok w.host.1, w) := rfl
  rw [check, ExceptT.run_bind, run_bind, run_lifted, hmemory]
  dsimp only
  cases w.host.1.faults.lookup operation <;> rfl

/-- A request is noted, and fails only where a fault is set. -/
theorem run_numbered (path : ValuePath) (range : ChildRange) (c : Scope)
    (w : World (Memory × List ChildRange)) :
    run ((numbered noting).children path range).run c w =
      match w.host.1.faults.lookup "source" with
      | some e => (.ok (.error e), { w with host := (w.host.1, w.host.2 ++ [range]) })
      | none =>
        let is := answered range w.host.1.supply w.host.1.surplus
        (.ok (.ok ((List.range is.length).map fun k => ⟨w.nodes.size + k⟩)),
          { w with
            host := (w.host.1, w.host.2 ++ [range])
            nodes := w.nodes ++ (is.map (numberedNode path)).toArray }) := by
  have hreport : run (noting.report (.askedChildren path range)) c w =
      (.ok (), { w with host := (w.host.1, w.host.2 ++ [range]) }) := rfl
  rw [numbered, ExceptT.run_bind, run_bind, run_lifted, hreport]
  dsimp only
  rw [ExceptT.run_bind, run_bind, run_check]
  dsimp only
  cases w.host.1.faults.lookup "source" with
  | some e => rfl
  | none =>
    dsimp only
    rw [ExceptT.run_bind, run_bind, run_lifted]
    change run (liftM (List.mapM (numberedChild path) _) : Eval (Program _) _).run c _ = _
    rw [run_lifted, run_numberedChildren]

/-- The numbered provider serves its arrays: with faults, with answers of any length, and with any
number of children. -/
theorem numberedArray_served (length : Nat) (hlength : length < UInt64.size) :
    (numberedArray length hlength).Served (host noting) := by
  intro start count c w
  have hrun := run_numbered (.root "n") (.range start count) c w
  cases hfault : w.host.1.faults.lookup "source" with
  | some e =>
    rw [hfault] at hrun
    exact ⟨_, _, hrun, rfl, nofun, fun _ _ hx => hx, fun _ chunk hchunk hn => ⟨chunk, hchunk, hn⟩⟩
  | none =>
    rw [hfault] at hrun
    have hold {i : Nat} {n : Node} (hn : w.nodes[i]? = some n) (more : Array Node) :
        (w.nodes ++ more)[i]? = some n := by
      obtain ⟨hlt, -⟩ := Array.getElem?_eq_some_iff.mp hn
      rw [Array.getElem?_append_left hlt, hn]
    refine ⟨_, _, hrun, rfl, ?_, ?_, ?_⟩
    · rintro _ ⟨⟩ k x hx
      rw [List.getElem?_map, Option.map_eq_some_iff] at hx
      obtain ⟨k', hk, rfl⟩ := hx
      obtain ⟨hlt, rfl⟩ := List.getElem?_eq_some_iff.mp hk
      rw [List.length_range] at hlt
      rw [List.getElem_range]
      have hi := List.getElem?_eq_getElem hlt
      refine ⟨numberedNode (.root "n") (start + k), ?_, rfl⟩
      rw [Array.getElem?_append_right (Nat.le_add_right _ _), Nat.add_sub_cancel_left,
        List.getElem?_toArray, List.getElem?_map, hi, getElem?_answered hi]
      rfl
    · rintro i x ⟨n, hn, hshows⟩
      exact ⟨n, hold hn _, hshows⟩
    · intro children chunk hchunk hn
      exact ⟨chunk, hchunk, hold hn _⟩

def five : Listing (Memory × List ChildRange) := numberedArray 5 (by decide)

def fiveOnShelf : World (Memory × List ChildRange) :=
  { host := ({ supply := 5, surplus := -1 }, [])
    nodes := #[.array (some (.external ⟨0⟩)) (.root "n") "int[]" 5 none] }

def browsed : List (Scope × ArrayCall) :=
  [(⟨.caller 0, [], []⟩, .chunk 0), (⟨.caller 0, [], []⟩, .element 2)]

theorem five_never_lie :
    five.Served (host noting) ∧
      fiveOnShelf.nodes[0]? = some (.array (some (.external ⟨0⟩)) (.root "n") "int[]" 5 none) ∧
      ∃ answer w', run (ArrayCall.children.perform (host noting) five.id) ⟨.caller 0, [], []⟩
          (five.after (host noting) browsed fiveOnShelf) = (.ok answer, w') ∧
        five.Truthful (host noting) ⟨.caller 0, [], []⟩ .children
          (five.after (host noting) browsed fiveOnShelf) answer w' := by
  have hserved : five.Served (host noting) := numberedArray_served 5 _
  obtain ⟨-, -, answer, w', hrun, -, htruthful⟩ :=
    arrays_never_lie hserved (w := fiveOnShelf) rfl browsed ⟨.caller 0, [], []⟩ .children
  exact ⟨hserved, rfl, answer, w', hrun, htruthful⟩

end Simulation

end DebugSession
