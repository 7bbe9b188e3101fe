import DebugSession.Proofs.Paging

namespace DebugSession.Listing

open Act NodeId

variable {σ : Type} {A : Listing σ} {h : Host σ} {c : Scope} {w w' : World σ}

def missing (A : Listing σ) (w : World σ) : List ChildRange :=
  if (A.kept w).size = A.length then []
  else [.range (A.kept w).size (A.length - (A.kept w).size)]

structure Counted (A : Listing σ) (h : Host σ) (c : Scope) (w : World σ) (ids : List NodeId)
    (w' : World σ) : Prop where
  faithful : A.Faithful w'
  requests : A.requests w'.host = A.requests w.host ++ A.missing w
  untouched : (A.kept w).size = A.length → w' = w
  fetched : (A.kept w).size ≠ A.length → ∃ r w₁,
    run (A.ask h (A.kept w).size (A.length - (A.kept w).size)) c w = (.ok r, w₁) ∧
      A.kept w' = A.keptAfter w (A.length - (A.kept w).size) r
  whole : (A.kept w').size = A.length → ids = (A.kept w').toList
  partly : (A.kept w').size ≠ A.length →
    ∃ x, ids = [x] ∧ Failed w' (A.length - 1) x ∧ x ∉ (A.kept w').toList

/-- The last element is fetched with all that are missing, or an error is made for it. -/
theorem run_last (hA : A.Served h) (hw : A.Faithful w) (hmissing : (A.kept w).size < A.length)
    (c : Scope) : ∃ x w', run (A.id.element h (A.length - 1)) c w = (.ok (.ok x), w') ∧
      A.Faithful w' ∧ A.requests w'.host = A.requests w.host ++ A.missing w ∧
      (∃ r w₁, run (A.ask h (A.kept w).size (A.length - (A.kept w).size)) c w = (.ok r, w₁) ∧
        A.kept w' = A.keptAfter w (A.length - (A.kept w).size) r) ∧
      ((A.kept w').size ≠ A.length → Failed w' (A.length - 1) x ∧ x ∉ (A.kept w').toList) := by
  have hlow : (A.kept w).size ≤ A.length - 1 := by omega
  have hhigh : A.length - 1 < A.length := by omega
  have hcount : min (A.length - 1 + (A.current w).chunk) A.length = A.length := by
    have hpos := hw.chunk_pos
    omega
  obtain ⟨r, w₁, hasked⟩ := exists_asked hA hw hlow hhigh c
  obtain ⟨x, w', hrun, hhost, hprogress, hkept, hx⟩ := hasked.gives hw hlow
  have hrequests : A.requests w'.host = A.requests w.host ++ A.missing w := by
    rw [hhost, hasked.requests, hcount, missing, if_neg (Nat.ne_of_lt hmissing)]
  have hanswer := hasked.run
  rw [hcount] at hanswer hkept
  rw [run_element hw, if_neg (by omega), Elements.step_of_le hlow]
  dsimp only
  rw [hrun]
  refine ⟨x, w', rfl, hprogress.faithful, hrequests, ⟨r, w₁, hanswer, hkept⟩, fun hsize => ?_⟩
  rcases hx with hx | ⟨hfailed, -, hfresh⟩
  · have hlt := (Array.getElem?_eq_some_iff.mp hx).1
    have hle := hprogress.faithful.size_le
    omega
  · exact ⟨hfailed, hfresh⟩

/-- The last element tells whether all are there, even if it shows an error itself. -/
theorem run_children_of_last (hw : A.Faithful w) (hpos : 0 < A.length) {x : NodeId}
    (hrun : run (A.id.element h (A.length - 1)) c w = (.ok (.ok x), w'))
    (hw' : A.Faithful w') (hfailed : (A.kept w').size ≠ A.length → Failed w' (A.length - 1) x) :
    run (A.id.children h) c w =
      (.ok (if (A.kept w').size = A.length then (A.kept w').toList else [x]), w') := by
  have hlength : (A.current w).length = A.length := by
    rw [hw.current]
    rfl
  have hle := hw'.size_le
  rw [run_children hw, run_elements_of_pos (by omega) (by rw [hlength]; exact hrun), hlength]
  by_cases hsize : (A.kept w').size = A.length
  · rw [if_pos hsize, if_neg (by simp; omega)]
  · obtain ⟨message, hx⟩ := hfailed hsize
    have herror : (w'.nodes.getD x.index default).isError = true := by
      rw [Array.getD_eq_getD_getElem?, hx]
      rfl
    have hlow : (A.kept w').size ≤ A.length - 1 := by omega
    rw [if_neg hsize, herror, if_pos (by simpa using hlow)]

theorem run_children_zero (hw : A.Faithful w) (hzero : A.length = 0) (c : Scope) :
    run (A.id.children h) c w = (.ok (A.kept w).toList, w) := by
  have hlength : ¬0 < (A.current w).length := by
    rw [hw.current]
    exact Nat.not_lt.mpr (Nat.le_of_eq hzero)
  rw [run_children hw, elements]
  simp only [if_neg hlength]
  rfl

theorem counted (hA : A.Served h) (hw : A.Faithful w) (c : Scope) :
    ∃ ids w', run (A.id.children h) c w = (.ok ids, w') ∧ A.Counted h c w ids w' := by
  have hle := hw.size_le
  by_cases hcomplete : (A.kept w).size = A.length
  · have hmissing : A.missing w = [] := if_pos hcomplete
    have hcounted : A.Counted h c w (A.kept w).toList w := by
      refine ⟨hw, ?_, fun _ => rfl, fun hsize => absurd hcomplete hsize, fun _ => rfl,
        fun hsize => absurd hcomplete hsize⟩
      rw [hmissing, List.append_nil]
    refine ⟨_, w, ?_, hcounted⟩
    rcases Nat.eq_zero_or_pos A.length with hzero | hpos
    · exact run_children_zero hw hzero c
    · have hlast : A.length - 1 < (A.kept w).size := by omega
      have hrun : run (A.id.element h (A.length - 1)) c w =
          (.ok (.ok (A.kept w)[A.length - 1]), w) := by
        rw [run_element hw, if_neg (by omega),
          Elements.step_of_some (Array.getElem?_eq_getElem hlast)]
      rw [run_children_of_last hw hpos hrun hw fun hsize => absurd hcomplete hsize,
        if_pos hcomplete]
  · obtain ⟨x, w', hrun, hw', hrequests, hfetched, hfailed⟩ := run_last hA hw (by omega) c
    refine ⟨_, w', run_children_of_last hw (by omega) hrun hw' fun hsize => (hfailed hsize).1,
      hw', hrequests, fun hsize => absurd hsize hcomplete, fun _ => hfetched,
      fun hsize => if_pos hsize, fun hsize => ⟨x, if_neg hsize, hfailed hsize⟩⟩

theorem Faithful.grows (hA : A.Served h) (hw : A.Faithful w) (calls : List (Scope × ArrayCall)) :
    (A.kept w).toList <+: (A.kept (A.after h calls w)).toList := by
  induction calls generalizing w with
  | nil => exact List.prefix_refl _
  | cons k calls ih =>
      obtain ⟨answer, w', hrun, htruthful⟩ := perform_spec hA hw k.1 k.2
      rw [Listing.after, List.foldl_cons, hrun]
      exact htruthful.progress.grows.trans (ih htruthful.progress.faithful)

/-- What was fetched once is what every later access to it gives, and no access fetches it again. -/
theorem Faithful.settled (hA : A.Served h) (hw : A.Faithful w) (calls : List (Scope × ArrayCall))
    {i : Nat} {x : NodeId} (hx : (A.kept w).toList[i]? = some x) (c : Scope) :
    run (A.id.element h i) c (A.after h calls w) = (.ok (.ok x), A.after h calls w) := by
  have hw' := hw.after hA calls
  have hx' : (A.kept (A.after h calls w))[i]? = some x := by
    obtain ⟨more, hmore⟩ := hw.grows hA calls
    rw [← Array.getElem?_toList, ← hmore,
      List.getElem?_append_left (List.getElem?_eq_some_iff.mp hx).1]
    exact hx
  have hlt := (Array.getElem?_eq_some_iff.mp hx').1
  have hle := hw'.size_le
  rw [run_element hw', if_neg (by omega), Elements.step_of_some hx']

/-- From a node that keeps nothing on, whatever was called and answered so far: the bulk access
sends one request for all that is missing, if anything is, and gives either each element that the
single access gives from then on, or an error that is none of them, as long as some are missing. -/
theorem bulk_agrees (hA : A.Served h)
    (hfresh : w.nodes[A.id.index]? =
      some (.array (some A.source) A.path A.typeName A.length none))
    (calls : List (Scope × ArrayCall)) (c : Scope) :
    ∃ ids w', run (A.id.children h) c (A.after h calls w) = (.ok ids, w') ∧
      A.Counted h c (A.after h calls w) ids w' ∧
      ((A.kept w').size = A.length → ids.length = A.length ∧
        ∀ (i : Nat) x, ids[i]? = some x → A.Shows w' i x ∧ ∀ later c',
          run (A.id.element h i) c' (A.after h later w') = (.ok (.ok x), A.after h later w')) := by
  have hentry : w.nodes[A.id.index]? = some (A.entry none 50) := hfresh
  obtain ⟨hfaithful, -⟩ := faithful_of_entry hentry (by decide) (Nat.zero_le _) (by simp)
  obtain ⟨ids, w', hrun, hcounted⟩ := counted hA (hfaithful.after hA calls) c
  refine ⟨ids, w', hrun, hcounted, fun hsize => ?_⟩
  obtain rfl := hcounted.whole hsize
  refine ⟨by rw [Array.length_toList, hsize], fun i x hx => ⟨?_, fun later c' => ?_⟩⟩
  · exact hcounted.faithful.shows i x (Array.getElem?_toList ▸ hx)
  · exact hcounted.faithful.settled hA later hx c'

end DebugSession.Listing

namespace DebugSession.Simulation

open Act

/-- The provider gives one element less than it is asked for, so the last one is missing. -/
theorem five_counted : five.Served (host noting) ∧
    fiveOnShelf.nodes[0]? = some (.array (some (.external ⟨0⟩)) (.root "n") "int[]" 5 none) ∧
    ∃ ids w', run (five.id.children (host noting)) ⟨.caller 0, [], []⟩
        (five.after (host noting) browsed fiveOnShelf) = (.ok ids, w') ∧
      five.Counted (host noting) ⟨.caller 0, [], []⟩
        (five.after (host noting) browsed fiveOnShelf) ids w' := by
  have hserved : five.Served (host noting) := numberedArray_served 5 _
  obtain ⟨ids, w', hrun, hcounted, -⟩ :=
    Listing.bulk_agrees hserved (w := fiveOnShelf) rfl browsed ⟨.caller 0, [], []⟩
  exact ⟨hserved, rfl, ids, w', hrun, hcounted⟩

end DebugSession.Simulation
