import DebugSession.Proofs.Mirror
import DebugSession.Proofs.Relocation

namespace DebugSession

open Act

theorem BreakEvent.line_withLine (e : BreakEvent) (line : Nat) :
    (e.withLine line).line = e.line.map fun _ => line := by
  obtain ⟨id, kind, enabled, condition, hitAction, trace, customAction⟩ := e
  cases kind <;> rfl

def Edit.lineFor (id : BreakEventId) : Edit → Option Nat
  | .add e => if e.id = id then e.line else none
  | .move id' line => if id' = id then some line else none
  | _ => none

def userLine (edits : List Edit) (id : BreakEventId) : Option Nat :=
  edits.foldl (fun line e => (e.lineFor id).or line) none

theorem userLine_concat (edits : List Edit) (e : Edit) (id : BreakEventId) :
    userLine (edits ++ [e]) id = (e.lineFor id).or (userLine edits id) := by
  simp only [userLine, List.foldl_append, List.foldl_cons, List.foldl_nil]

namespace BreakpointStore

section Remembered

variable {κ : Type} (x : BreakpointStore κ)

def remembered (id : BreakEventId) : Option Nat := (x.adjusted.find? (·.1 == id)).map (·.2)

def putBack (e : BreakEvent) : BreakEvent :=
  match x.remembered e.id with
  | none => e
  | some line => e.withLine line

structure Tidy : Prop where
  distinct : x.Distinct
  once : (x.adjusted.map (·.1)).Nodup

/-- Each breakpoint stands where it is wanted, or this is remembered of it. -/
def LeadsBack (wanted : BreakEventId → Option Nat) : Prop :=
  ∀ id e line, x.get? id = some e → e.line = some line →
    wanted id = some ((x.remembered id).getD line)

/-- An addition on another line than the one that is remembered of the event. -/
def Misled : Edit → Prop
  | .add e => ∃ line before, e.line = some line ∧ x.remembered e.id = some before ∧ before ≠ line
  | _ => False

instance : DecidablePred x.Misled
  | .add e => match hline : e.line, hbefore : x.remembered e.id with
    | some line, some before => decidable_of_iff (before ≠ line) (by simp [Misled, hline, hbefore])
    | none, _ => isFalse (by simp [Misled, hline])
    | _, none => isFalse (by simp [Misled, hbefore])
  | .remove _ | .clear | .enable _ _ | .condition _ _ | .move _ _ => isFalse id

variable {x} {y : BreakpointStore κ}

theorem remembered_eq (hadjusted : y.adjusted = x.adjusted) : y.remembered = x.remembered := by
  funext id
  rw [remembered, hadjusted, remembered]

theorem putBack_id (x : BreakpointStore κ) (e : BreakEvent) : (x.putBack e).id = e.id := by
  simp only [putBack]
  split
  · rfl
  · exact e.withLine_id _

theorem remembered_forget (x : BreakpointStore κ) (id id' : BreakEventId) :
    (x.forget id).remembered id' = if id' = id then none else x.remembered id' := by
  simp only [remembered, forget]
  rw [Keyed.find?_filter_ne (fun a : BreakEventId × Nat => a.1)]
  split <;> rfl

theorem remembered_remember (x : BreakpointStore κ) (id : BreakEventId) (line : Nat)
    (id' : BreakEventId) : (x.remember id line).remembered id' =
      if id' = id then some ((x.remembered id).getD line) else x.remembered id' := by
  simp only [remembered, remember]
  by_cases hany : x.adjusted.any (·.1 == id)
  · rw [if_pos hany]
    split
    · rename_i hid
      obtain ⟨a, ha, hid'⟩ := List.any_eq_true.mp hany
      cases hfind : x.adjusted.find? (·.1 == id) with
      | none => exact absurd hid' (List.find?_eq_none.mp hfind a ha)
      | some b => rw [hid, hfind]; rfl
    · rfl
  · rw [if_neg hany]
    have hnone : x.adjusted.find? (·.1 == id) = none :=
      List.find?_eq_none.mpr fun a ha hid => hany (List.any_eq_true.mpr ⟨a, ha, hid⟩)
    rw [List.find?_append, hnone]
    by_cases hid : id' = id
    · subst hid
      simp [hnone]
    · simp [hid, Ne.symm hid]

theorem put_adjusted (x : BreakpointStore κ) (e : BreakEvent) :
    (x.put e).adjusted = x.adjusted := by
  simp only [put]
  split <;> rfl

theorem takenBack_eq {adjusted : List (BreakEventId × Nat)} (honce : (adjusted.map (·.1)).Nodup)
    (e : BreakEvent) : e.takenBack adjusted =
      match (adjusted.find? (·.1 == e.id)).map (·.2) with
      | none => e
      | some line => e.withLine line := by
  induction adjusted generalizing e with
  | nil => rfl
  | cons a rest ih =>
      rw [List.map_cons, List.nodup_cons] at honce
      change (e.backOn a).takenBack rest = _
      rw [ih honce.2]
      by_cases hid : a.1 = e.id
      · have hnone : rest.find? (·.1 == e.id) = none := by
          refine List.find?_eq_none.mpr fun b hb hid' => honce.1 ?_
          rw [hid, ← eq_of_beq hid']
          exact List.mem_map_of_mem hb
        simp [BreakEvent.backOn, hid, e.withLine_id, hnone]
      · simp [BreakEvent.backOn, hid]

theorem tidy_apply {e : Edit} {as : List Announcement} (hx : x.Tidy) (he : x.apply e = .ok (y, as)) :
    y.Tidy := by
  refine ⟨distinct_apply hx.distinct he, ?_⟩
  cases e with
  | add e =>
      cases he
      rw [put_adjusted]
      exact hx.once
  | clear =>
      cases he
      exact List.nodup_nil
  | enable id on | condition id text =>
      simp only [apply] at he
      split at he
      · cases he
      · cases he
        exact hx.once
  | remove id | move id line =>
      simp only [apply] at he
      split at he
      · cases he
      · cases he
        exact Keyed.nodup_filter _ hx.once _

theorem tidy_adjust {id : BreakEventId} {line : Nat} {a : Option LineAdjustment} (hx : x.Tidy)
    (ha : x.adjust id line = .ok (y, a)) : y.Tidy := by
  refine ⟨distinct_adjust hx.distinct ha, ?_⟩
  obtain ⟨rfl, -⟩ | ⟨e, before, -, -, -, rfl, -⟩ := adjust_cases ha
  · exact hx.once
  · change ((x.remember id before).adjusted.map (·.1)).Nodup
    simp only [remember]
    split
    · exact hx.once
    · rename_i hany
      rw [List.map_append, List.nodup_append]
      refine ⟨hx.once, by simp, ?_⟩
      rintro _ hid _ hid' rfl
      obtain ⟨b, hb, hid⟩ := List.mem_map.mp hid
      rw [List.map_singleton, List.mem_singleton] at hid'
      exact hany (List.any_eq_true.mpr ⟨b, hb, beq_iff_eq.mpr (hid.trans hid')⟩)

/-- A change in place of an event, after which another line may be remembered of it. -/
theorem LeadsBack.changed {wanted wanted' : BreakEventId → Option Nat} (hx : x.LeadsBack wanted)
    {old : BreakEvent} (new : BreakEvent) (hold : x.get? old.id = some old) (hid : new.id = old.id)
    (hview : y.view = x.view.modify new.id fun _ => new)
    (hnew : ∀ line, new.line = some line → wanted' old.id = some ((y.remembered old.id).getD line))
    (hothers : ∀ id, id ≠ old.id → wanted' id = wanted id ∧ y.remembered id = x.remembered id) :
    y.LeadsBack wanted' := by
  intro id e line he hline
  change y.view id = some e at he
  rw [hview, StoreView.modify, hid] at he
  split at he
  · rename_i hid'
    subst hid'
    rw [view, hold] at he
    cases he
    exact hnew line hline
  · rename_i hid'
    obtain ⟨hwanted, hremembered⟩ := hothers id hid'
    rw [hwanted, hremembered]
    exact hx id e line he hline

theorem LeadsBack.replaced {wanted : BreakEventId → Option Nat} (hx : x.LeadsBack wanted)
    {old : BreakEvent} (new : BreakEvent) (hold : x.get? old.id = some old) (hid : new.id = old.id)
    (hline : new.line = old.line) : (x.replace new).LeadsBack wanted :=
  hx.changed new hold hid (view_replace x new)
    (fun line hnew => hx old.id old line hold (hline ▸ hnew)) fun _ _ => ⟨rfl, rfl⟩

/-- It is only by additions that a store comes to remember a wrong line. -/
theorem userLine_concat_of_none {e : Edit} {id : BreakEventId} (hline : e.lineFor id = none)
    (edits : List Edit) : userLine (edits ++ [e]) id = userLine edits id := by
  rw [userLine_concat, hline, Option.none_or]

/-- An addition leads away only where another line is remembered than the one that it names. -/
theorem LeadsBack.put_iff {edits : List Edit} (hx : x.LeadsBack (userLine edits)) (e : BreakEvent) :
    (x.put e).LeadsBack (userLine (edits ++ [.add e])) ↔ ¬x.Misled (.add e) := by
  have hremembered := remembered_eq (put_adjusted x e)
  constructor
  · rintro hy ⟨line, before, hline, hbefore, hne⟩
    have hget : (x.put e).get? e.id = some e := by
      change (x.put e).view e.id = _
      rw [view_put, StoreView.put, if_pos rfl]
    have huser := hy e.id e line hget hline
    rw [userLine_concat, Edit.lineFor, if_pos rfl, hline, hremembered, hbefore] at huser
    exact hne (Option.some.inj huser).symm
  · intro hmisled id e' line he' hline
    change (x.put e).view id = some e' at he'
    rw [view_put, StoreView.put] at he'
    rw [hremembered]
    split at he'
    · rename_i hid
      cases he'
      subst hid
      rw [userLine_concat, Edit.lineFor, if_pos rfl, hline]
      cases hbefore : x.remembered e.id with
      | none => rfl
      | some before =>
          have hsame : before = line :=
            Decidable.of_not_not fun hne => hmisled ⟨line, before, hline, hbefore, hne⟩
          rw [hsame]
          rfl
    · rename_i hid
      rw [userLine_concat_of_none (e := .add e) (if_neg (Ne.symm hid))]
      exact hx id e' line he' hline

theorem LeadsBack.erased {wanted : BreakEventId → Option Nat} (hx : x.LeadsBack wanted)
    (id : BreakEventId) : ((x.erase id).forget id).LeadsBack wanted := by
  intro id' e line he hline
  change (x.erase id).view id' = some e at he
  rw [view_erase, StoreView.erase] at he
  split at he
  · cases he
  · rename_i hid
    have hkept : ((x.erase id).forget id).remembered id' = x.remembered id' :=
      (remembered_forget x id id').trans (if_neg hid)
    rw [hkept]
    exact hx id' e line he hline

/-- A move by the user is to where the event stands from then on. -/
theorem LeadsBack.moved {edits : List Edit} (hx : x.LeadsBack (userLine edits)) {old : BreakEvent}
    (hold : x.get? old.id = some old) (line : Nat) :
    ((x.forget old.id).replace (old.withLine line)).LeadsBack
      (userLine (edits ++ [.move old.id line])) := by
  have hremembered (id : BreakEventId) := remembered_forget x old.id id
  have hothers (id : BreakEventId) (hid : id ≠ old.id) :
      userLine (edits ++ [.move old.id line]) id = userLine edits id :=
    userLine_concat_of_none (e := .move old.id line) (if_neg (Ne.symm hid)) edits
  refine hx.changed (old.withLine line) hold (old.withLine_id line)
    (view_replace (x.forget old.id) _) (fun line' hline => ?_) fun id hid =>
      ⟨hothers id hid, (hremembered id).trans (if_neg hid)⟩
  rw [old.line_withLine, Option.map_eq_some_iff] at hline
  obtain ⟨-, -, rfl⟩ := hline
  change _ = some (((x.forget old.id).remembered old.id).getD line)
  rw [userLine_concat, Edit.lineFor, if_pos rfl, hremembered, if_pos rfl]
  rfl

theorem leadsBack_apply_iff {e : Edit} {as : List Announcement} {edits : List Edit}
    (hx : x.LeadsBack (userLine edits)) (he : x.apply e = .ok (y, as)) :
    y.LeadsBack (userLine (edits ++ [e])) ↔ ¬x.Misled e := by
  have hsame (hline : ∀ id, e.lineFor id = none) :
      userLine (edits ++ [e]) = userLine edits :=
    funext fun id => userLine_concat_of_none (hline id) edits
  cases e with
  | add e =>
      cases he
      exact hx.put_iff e
  | remove id =>
      refine iff_of_true ?_ not_false
      simp only [apply] at he
      split at he
      · cases he
      · cases he
        rw [hsame fun _ => rfl]
        exact hx.erased id
  | clear =>
      refine iff_of_true ?_ not_false
      cases he
      intro id e' line he' hline
      cases he'
  | enable id on | condition id text =>
      refine iff_of_true ?_ not_false
      simp only [apply] at he
      split at he
      · cases he
      · rename_i old hold
        cases he
        obtain rfl := id_of_get? hold
        rw [hsame fun _ => rfl]
        exact hx.replaced _ hold rfl rfl
  | move id line =>
      refine iff_of_true ?_ not_false
      simp only [apply] at he
      split at he
      · cases he
      · rename_i old hold
        cases he
        obtain rfl := id_of_get? hold
        exact hx.moved hold line

theorem leadsBack_adjust {id : BreakEventId} {line : Nat} {a : Option LineAdjustment}
    {wanted : BreakEventId → Option Nat} (hx : x.LeadsBack wanted)
    (ha : x.adjust id line = .ok (y, a)) : y.LeadsBack wanted := by
  obtain ⟨rfl, -⟩ | ⟨e, before, hold, hbefore, -, rfl, -⟩ := adjust_cases ha
  · exact hx
  · obtain rfl := id_of_get? hold
    have hremembered (id : BreakEventId) := remembered_remember x e.id before id
    have hview : ((x.remember e.id before).replace (e.withLine line)).view =
        x.view.modify (e.withLine line).id fun _ => e.withLine line := by
      rw [view_replace, view_remember]
    refine hx.changed (e.withLine line) hold (e.withLine_id line) hview (fun line' _ => ?_)
      fun id hid => ⟨rfl, (hremembered id).trans (if_neg hid)⟩
    change _ = some (((x.remember e.id before).remembered e.id).getD line')
    rw [hremembered, if_pos rfl]
    exact hx e.id e before hold hbefore

end Remembered

variable {x y : BreakpointStore Listener}

theorem takenBack_adjusted (hx : x.Tidy) (e : BreakEvent) : e.takenBack x.adjusted = x.putBack e :=
  takenBack_eq hx.once e

theorem tidy_restored (hx : x.Tidy) : x.restored.Tidy :=
  ⟨distinct_takenBack hx.distinct x.adjusted, List.nodup_nil⟩

theorem line_putBack (x : BreakpointStore Listener) (e : BreakEvent) :
    (x.putBack e).line = e.line.map (x.remembered e.id).getD := by
  simp only [putBack]
  cases x.remembered e.id with
  | none => exact Option.map_id'.symm
  | some line => exact e.line_withLine line

/-- A reset puts on their lines just the breakpoints that a store leads back to them. -/
theorem leadsBack_iff (hx : x.Tidy) (wanted : BreakEventId → Option Nat) :
    x.LeadsBack wanted ↔
      ∀ e ∈ x.events.map x.putBack, ∀ line, e.line = some line → wanted e.id = some line := by
  constructor
  · intro hback e' he' line hline
    obtain ⟨e, he, rfl⟩ := List.mem_map.mp he'
    rw [line_putBack, Option.map_eq_some_iff] at hline
    obtain ⟨before, hbefore, rfl⟩ := hline
    rw [putBack_id]
    exact hback e.id e before (get?_of_mem hx.distinct he) hbefore
  · intro hlines id e line he hline
    obtain rfl := id_of_get? he
    have hput : (x.putBack e).line = some ((x.remembered e.id).getD line) := by
      rw [line_putBack, hline]
      rfl
    have hwanted := hlines _ (List.mem_map_of_mem (mem_of_get? he)) _ hput
    rwa [putBack_id] at hwanted

theorem leadsBack_restored (hx : x.Tidy) {wanted : BreakEventId → Option Nat}
    (hback : x.LeadsBack wanted) : x.restored.LeadsBack wanted := by
  intro id e line he hline
  have hmem : e ∈ x.events.map x.putBack := by
    rw [← funext (takenBack_adjusted hx)]
    exact mem_of_get? he
  obtain rfl := id_of_get? he
  exact (leadsBack_iff hx wanted).mp hback e hmem line hline

/-- The order in which the lines are remembered makes no difference. -/
theorem putBack_perm (hx : x.Tidy) {adjusted : List (BreakEventId × Nat)}
    (hperm : adjusted.Perm x.adjusted) (e : BreakEvent) : e.takenBack adjusted = x.putBack e := by
  rw [← takenBack_adjusted hx]
  refine hperm.foldl_eq' (fun a ha b hb e => ?_) e
  have hsame : a.1 = b.1 → a = b :=
    List.inj_on_of_nodup_map hx.once (hperm.mem_iff.mp ha) (hperm.mem_iff.mp hb)
  by_cases hab : a.1 = b.1
  · rw [hsame hab]
  · by_cases ha' : a.1 = e.id
    · have hb' : b.1 ≠ e.id := fun hb' => hab (ha'.trans hb'.symm)
      simp [BreakEvent.backOn, ha', hb', e.withLine_id]
    · by_cases hb' : b.1 = e.id
      · simp [BreakEvent.backOn, ha', hb', e.withLine_id]
      · simp [BreakEvent.backOn, ha', hb']

inductive Reworked (x : BreakpointStore Listener) : BreakpointStore Listener → List Edit → Prop
  | same : Reworked x x []
  | edited {e : Edit} {y : BreakpointStore Listener} {as : List Announcement}
      (he : x.apply e = .ok (y, as)) : Reworked x y [e]
  | adjusted {id : BreakEventId} {line : Nat} {y : BreakpointStore Listener}
      {a : Option LineAdjustment} (ha : x.adjust id line = .ok (y, a)) : Reworked x y []
  | reset : Reworked x x.restored []

theorem Reworked.tidy {edits : List Edit} (hy : Reworked x y edits) (hx : x.Tidy) : y.Tidy := by
  cases hy with
  | same => exact hx
  | edited he => exact tidy_apply hx he
  | adjusted ha => exact tidy_adjust hx ha
  | reset => exact tidy_restored hx

theorem Reworked.leadsBack_iff {edits past : List Edit} (hy : Reworked x y edits) (hx : x.Tidy)
    (hback : x.LeadsBack (userLine past)) :
    y.LeadsBack (userLine (past ++ edits)) ↔ ¬∃ e ∈ edits, x.Misled e := by
  cases hy with
  | edited he => simpa using leadsBack_apply_iff hback he
  | same => simpa using hback
  | adjusted ha => simpa using leadsBack_adjust hback ha
  | reset => simpa using leadsBack_restored hx hback

structure Same (x y : BreakpointStore Listener) : Prop where
  events : y.events = x.events
  adjusted : y.adjusted = x.adjusted

theorem Same.tidy (hxy : x.Same y) (hx : x.Tidy) : y.Tidy :=
  ⟨by rw [Distinct, hxy.events]; exact hx.distinct, by rw [hxy.adjusted]; exact hx.once⟩

theorem Same.leadsBack (hxy : x.Same y) {wanted : BreakEventId → Option Nat} :
    y.LeadsBack wanted ↔ x.LeadsBack wanted := by
  simp only [LeadsBack, get?, remembered, hxy.events, hxy.adjusted]

theorem Same.misled (hxy : x.Same y) (e : Edit) : y.Misled e ↔ x.Misled e := by
  cases e <;> simp only [Misled, remembered, hxy.adjusted]

end BreakpointStore

section InUse

variable {σ : Type} {h : Host σ} {st : StoreId} {c : Scope} {w w' : World σ}

def StoreId.undisturbed (st : StoreId) : World.Frame σ where
  rel w w' := w.stores.size ≤ w'.stores.size ∧ (w.store st).Same (w'.store st)
  refl _ := ⟨Nat.le_refl _, rfl, rfl⟩
  trans h h' := ⟨Nat.le_trans h.1 h'.1, h'.2.events.trans h.2.events,
    h'.2.adjusted.trans h.2.adjusted⟩
  session _ _ _ := ⟨Nat.le_refl _, rfl, rfl⟩

structure Host.Discreet (h : Host σ) (st : StoreId) : Prop where
  keeps : h.Keeps st.undisturbed
  storeChanged : ∀ k st' a, Within st.undisturbed (h.storeChanged k st' a)
  vetoes : ∀ k st', Within st.undisturbed (h.vetoes k st')

structure World.Reworked (w : World σ) (st : StoreId) (edits : List Edit) (w' : World σ) : Prop where
  lt_size : st.index < w'.stores.size
  store : ∃ x y, (w.store st).Same x ∧ x.Reworked y edits ∧ y.Same (w'.store st)

def StoreCall.made (h : Host σ) (st : StoreId) (c : Scope) (w : World σ) : StoreCall → List Edit
  | edit e =>
    match (run (st.edit h e) c w).1 with
    | .ok (.ok _) => [e]
    | _ => []
  | _ => []

theorem World.Reworked.of_undisturbed {edits : List Edit} {w₁ : World σ}
    (hw : st.undisturbed.rel w w₁) (hw' : w₁.Reworked st edits w') : w.Reworked st edits w' := by
  obtain ⟨hlt, x, y, hx, hy, hsame⟩ := hw'
  exact ⟨hlt, x, y, ⟨hx.events.trans hw.2.events, hx.adjusted.trans hw.2.adjusted⟩, hy, hsame⟩

theorem World.Reworked.same (hst : st.index < w.stores.size) (hw : st.undisturbed.rel w w') :
    w.Reworked st [] w' :=
  ⟨Nat.lt_of_lt_of_le hst hw.1, _, _, hw.2, .same, rfl, rfl⟩

/-- What is put into another store is no matter of this one. -/
theorem World.undisturbed_putStore {st' : StoreId} (hst : st' ≠ st) (w : World σ)
    (y : BreakpointStore Listener) : st.undisturbed.rel w (w.putStore st' y) := by
  have hstore : (w.putStore st' y).store st = w.store st := by
    rw [store_putStore, if_neg fun h => hst h.1.symm]
  refine ⟨Nat.le_of_eq (w.size_putStore st' y).symm, ?_⟩
  rw [hstore]
  exact ⟨rfl, rfl⟩

namespace Host.Discreet

variable (discreet : h.Discreet st)
include discreet

theorem announceAll (st' : StoreId) (as : List Announcement) :
    Within st.undisturbed (st'.announceAll h as) :=
  discreet.keeps.announceAll (discreet.storeChanged · st') as

/-- Whoever is told of a change does not change the store any further. -/
theorem told {y : BreakpointStore Listener} {edits : List Edit} {w₁ : World σ}
    (hst : st.index < w.stores.size) (hy : (w.store st).Reworked y edits)
    (hw₁ : st.undisturbed.rel (w.putStore st y) w₁) (as : List Announcement) :
    Yields (st.announceAll h as) c w₁ fun _ w' => w.Reworked st edits w' := by
  refine (discreet.announceAll st as c w₁).mono fun _ w' hw' => ?_
  obtain ⟨hsize, hsame⟩ := st.undisturbed.trans hw₁ hw'
  rw [World.size_putStore] at hsize
  rw [World.store_putStore_self hst] at hsame
  exact ⟨Nat.lt_of_lt_of_le hst hsize, _, y, ⟨rfl, rfl⟩, hy, hsame⟩

theorem edit (hst : st.index < w.stores.size) (e : Edit) :
    Yields (st.edit h e) c w fun r w' => w.Reworked st (if r.isOk then [e] else []) w' := by
  refine (discreet.keeps.storeIsReadOnly (discreet.vetoes · st) c w).bind fun readOnly w₁ hw₁ => ?_
  have hsame := World.Reworked.same hst hw₁
  cases readOnly with
  | true => exact Yields.pure hsame
  | false =>
      refine Yields.store ?_
      cases happly : (w₁.store st).apply e with
      | error err => exact Yields.pure hsame
      | ok y =>
          refine Yields.setStore ((discreet.told hsame.lt_size (.edited happly)
            (st.undisturbed.refl _) y.2).bind ?_)
          exact fun _ w' hw' => Yields.pure (hw'.of_undisturbed hw₁)

theorem adjust (hst : st.index < w.stores.size) (id : BreakEventId) (line : Nat) :
    Yields (st.adjust h id line) c w fun _ w' => w.Reworked st [] w' := by
  have hsame := World.Reworked.same hst (st.undisturbed.refl w)
  refine (Yields.moved st id line c w).bind fun r w₁ hw₁ => ?_
  rcases r with err | (_ | a)
  · obtain ⟨-, rfl⟩ := hw₁
    exact Yields.pure hsame
  · obtain ⟨-, rfl⟩ := hw₁
    exact Yields.pure hsame
  · obtain ⟨y, hy, rfl⟩ := hw₁
    refine (discreet.told hst (.adjusted hy) (st.undisturbed.refl _) a.announcements).bind ?_
    exact fun _ _ hw' => Yields.pure hw'

/-- The record of the event in the session is changed before anyone is told. -/
theorem moveAndTell (hst : st.index < w.stores.size) (s : SessionId) (id : BreakEventId)
    (line : Nat) : Yields (SessionId.adjust.moveAndTell h s id line st) c w
      fun _ w' => w.Reworked st [] w' := by
  refine (Yields.movedRecorded st.undisturbed s st id line c w).bind fun r w₁ hw₁ => ?_
  rcases r with err | (_ | a)
  · obtain rfl : w₁ = w := hw₁
    exact Yields.pure (World.Reworked.same hst (st.undisturbed.refl w₁))
  · obtain rfl : w₁ = w := hw₁
    exact Yields.pure (World.Reworked.same hst (st.undisturbed.refl w₁))
  · obtain ⟨y, hy, hw₁⟩ := hw₁
    refine (discreet.told hst (.adjusted hy) hw₁ a.announcements).bind ?_
    exact fun _ _ hw' => Yields.pure hw'

theorem relocate (hst : st.index < w.stores.size) (s : SessionId) (id : BreakEventId)
    (line : Nat) : Yields (s.adjust h id line) c w fun _ w' => w.Reworked st [] w' := by
  refine Yields.session ?_
  cases (w.session s).store with
  | none => exact Yields.pure (World.Reworked.same hst (st.undisturbed.refl w))
  | some st' =>
      have hopen (m : BindingTable → BindingTable) :
          Within st.undisturbed (s.modifyBindings m : Act σ Unit) := Within.modifySession s _
      refine Yields.thread ((hopen _ c w).bind fun _ w₁ hw₁ => ?_)
      have hst₁ := Nat.lt_of_lt_of_le hst hw₁.1
      refine Yields.followedBy (P := fun _ w' => w.Reworked st [] w') ?_ fun _ w₂ hw₂ => ?_
      · by_cases heq : st' = st
        · subst heq
          exact (discreet.moveAndTell hst₁ s id line).mono fun _ _ hw' => hw'.of_undisturbed hw₁
        · refine (discreet.keeps.moveAndTell (discreet.storeChanged · st')
            (World.undisturbed_putStore heq) s id line c w₁).mono fun _ w' hw' => ?_
          exact World.Reworked.same hst (st.undisturbed.trans hw₁ hw')
      · refine (hopen _ c w₂).mono ?_
        rintro _ w₃ ⟨hsize, hsame⟩
        obtain ⟨hst₂, x, y, hx, hy, hy'⟩ := hw₂
        exact ⟨Nat.lt_of_lt_of_le hst₂ hsize, x, y, hx, hy, hsame.events.trans hy'.events,
          hsame.adjusted.trans hy'.adjusted⟩

theorem resetAdjusted (hst : st.index < w.stores.size) (htidy : (w.store st).Tidy) :
    Yields (st.resetAdjusted h) c w fun _ w' =>
      st.index < w'.stores.size ∧ (w.store st).restored.Same (w'.store st) := by
  refine Yields.store (Yields.setStore ?_)
  -- With all that is still to be put back put back at once, the store is the same throughout.
  let I (rest : List (BreakEventId × Nat)) (w' : World σ) : Prop := st.index < w'.stores.size ∧
    (w'.store st).Distinct ∧ (w.store st).restored.Same ((w'.store st).takenBack rest)
  have hI : I (w.store st).adjusted (w.putStore st { w.store st with adjusted := [] }) := by
    refine ⟨by rwa [World.size_putStore], ?_⟩
    rw [World.store_putStore_self hst]
    exact ⟨htidy.distinct, rfl, rfl⟩
  refine (Yields.forM I hI fun a rest w₁ hw₁ => ?_).mono fun _ w' hw' => ?_
  · obtain ⟨hst₁, hdistinct, hevents, hadjusted⟩ := hw₁
    refine Yields.store ?_
    rw [BreakpointStore.restore_eq hdistinct]
    refine Yields.setStore ((discreet.announceAll st _ _ _).mono ?_)
    rintro _ w₂ ⟨hsize, hsame⟩
    rw [World.size_putStore] at hsize
    rw [World.store_putStore_self hst₁] at hsame
    refine ⟨Nat.lt_of_lt_of_le hst₁ hsize, ?_, ?_, ?_⟩
    · rw [BreakpointStore.Distinct, hsame.events]
      exact BreakpointStore.distinct_takenBack hdistinct [a]
    · rw [← hevents, ← BreakpointStore.takenBack_cons]
      simp only [BreakpointStore.takenBack, hsame.events]
    · exact hsame.adjusted.trans hadjusted
  · obtain ⟨hst', -, hsame⟩ := hw'
    rw [BreakpointStore.takenBack_nil] at hsame
    exact ⟨hst', hsame⟩

theorem perform (hst : st.index < w.stores.size) (htidy : (w.store st).Tidy) (call : StoreCall) :
    Yields (call.perform h st) c w fun _ w' => w.Reworked st (call.made h st c w) w' := by
  cases call with
  | edit e =>
      obtain ⟨r, w', hrun, hw'⟩ := discreet.edit (c := c) hst e
      refine ⟨(), w', ?_, ?_⟩
      · change run ((fun _ => ()) <$> st.edit h e) c w = _
        rw [map_eq_pure_bind, run_bind, hrun]
        rfl
      · simp only [StoreCall.made, hrun]
        cases r <;> exact hw'
  | adjust id line => exact (discreet.adjust hst id line).discard
  | relocate s id line => exact (discreet.relocate hst s id line).discard
  | resetAdjusted =>
      refine (discreet.resetAdjusted hst htidy).mono ?_
      rintro _ w' ⟨hst', hsame⟩
      exact ⟨hst', _, _, ⟨rfl, rfl⟩, .reset, hsame⟩

end Host.Discreet

/-- What a reset makes of a store. Only what is remembered of an event is changed of it. -/
structure StoreId.Restored (h : Host σ) (st : StoreId) (c : Scope) (w w' : World σ) : Prop where
  returns : run (st.resetAdjusted h) c w = (.ok (), w')
  events : (w'.store st).events = (w.store st).events.map (w.store st).putBack
  adjusted : (w'.store st).adjusted = []
  anyOrder : ∀ adjusted, adjusted.Perm (w.store st).adjusted → ∃ w'',
    run (st.resetAdjusted h) c (w.putStore st { w.store st with adjusted }) = (.ok (), w'') ∧
      (w'.store st).Same (w''.store st)
  again : ∀ (h' : Host σ) c', run (st.resetAdjusted h') c' w' = (.ok (), w')

theorem StoreId.run_resetAdjusted_nothing (h : Host σ) (c : Scope)
    (hadjusted : (w.store st).adjusted = []) : run (st.resetAdjusted h) c w = (.ok (), w) := by
  obtain ⟨_, w', hrun, rfl⟩ : Yields (st.resetAdjusted h) c w fun _ w' => w' = w := by
    refine Yields.store (Yields.setStore ?_)
    rw [hadjusted]
    refine Yields.pure ?_
    rw [← hadjusted]
    exact World.putStore_self w st
  exact hrun

theorem Host.Discreet.restored (discreet : h.Discreet st) (hst : st.index < w.stores.size)
    (htidy : (w.store st).Tidy) : ∃ w', st.Restored h c w w' := by
  have hevents : (w.store st).restored.events = (w.store st).events.map (w.store st).putBack :=
    List.map_congr_left fun e _ => BreakpointStore.takenBack_adjusted htidy e
  obtain ⟨_, w', hrun, -, hsame⟩ := discreet.resetAdjusted (c := c) hst htidy
  refine ⟨w', hrun, hsame.events.trans hevents, hsame.adjusted, fun adjusted hperm => ?_,
    fun h' c' => StoreId.run_resetAdjusted_nothing h' c' hsame.adjusted⟩
  have hput := World.store_putStore_self hst { w.store st with adjusted }
  obtain ⟨_, w'', hrun', -, hsame'⟩ := discreet.resetAdjusted (c := c)
    (w := w.putStore st { w.store st with adjusted }) (by rwa [World.size_putStore])
    (by rw [hput]; exact ⟨htidy.distinct, (hperm.map _).nodup_iff.mpr htidy.once⟩)
  refine ⟨w'', hrun', ?_, hsame'.adjusted.trans hsame.adjusted.symm⟩
  rw [hsame'.events, hsame.events, hevents, hput]
  exact List.map_congr_left fun e _ => BreakpointStore.putBack_perm htidy hperm e

namespace StoreCall

variable (h st)

def after (x : World σ × List Edit) (call : Scope × StoreCall) : World σ × List Edit :=
  ((run (call.2.perform h st) call.1 x.1).2, x.2 ++ call.2.made h st call.1 x.1)

def Panics (x : World σ × List Edit) (call : Scope × StoreCall) : Prop :=
  ∃ p, (run (call.2.perform h st) call.1 x.1).1 = .error p

/-- Adds an event again while another line is remembered of it. -/
def Misleads (x : World σ × List Edit) (call : Scope × StoreCall) : Prop :=
  ∃ e ∈ call.2.made h st call.1 x.1, (x.1.store st).Misled e

instance (x : World σ × List Edit) (call : Scope × StoreCall) :
    Decidable (Misleads h st x call) := List.decidableBEx _ _

/-- A reset, if it is made now, leaves every breakpoint on the line that the user gave it last. -/
def ComesBack (x : World σ × List Edit) : Prop :=
  ∀ c, ∃ w', st.Restored h c x.1 w' ∧
    ∀ e ∈ (w'.store st).events, ∀ line, e.line = some line → userLine x.2 e.id = some line

end StoreCall

theorem StoreId.Restored.leadsBack_iff (hw' : st.Restored h c w w') (htidy : (w.store st).Tidy)
    (wanted : BreakEventId → Option Nat) : (w.store st).LeadsBack wanted ↔
      ∀ e ∈ (w'.store st).events, ∀ line, e.line = some line → wanted e.id = some line := by
  rw [hw'.events]
  exact BreakpointStore.leadsBack_iff htidy wanted

namespace Host.Discreet

variable (discreet : h.Discreet st)
include discreet

theorem comesBack_iff {x : World σ × List Edit} (hst : st.index < x.1.stores.size)
    (htidy : (x.1.store st).Tidy) :
    StoreCall.ComesBack h st x ↔ (x.1.store st).LeadsBack (userLine x.2) := by
  constructor
  · intro hback
    obtain ⟨w', hw', hlines⟩ := hback ⟨.caller 0, [], []⟩
    exact (hw'.leadsBack_iff htidy _).mpr hlines
  · intro hback c
    obtain ⟨w', hw'⟩ := discreet.restored (c := c) hst htidy
    exact ⟨w', hw', (hw'.leadsBack_iff htidy _).mp hback⟩

/-- What a call leaves in order, and when it loses a line. -/
theorem perform_after {x : World σ × List Edit} (hst : st.index < x.1.stores.size)
    (htidy : (x.1.store st).Tidy) (call : Scope × StoreCall) :
    ¬StoreCall.Panics h st x call ∧
      st.index < (StoreCall.after h st x call).1.stores.size ∧
      ((StoreCall.after h st x call).1.store st).Tidy ∧
      ((x.1.store st).LeadsBack (userLine x.2) →
        (((StoreCall.after h st x call).1.store st).LeadsBack
          (userLine (StoreCall.after h st x call).2) ↔ ¬StoreCall.Misleads h st x call)) := by
  obtain ⟨_, w', hrun, hst', y, z, hy, hz, hsame⟩ := discreet.perform hst htidy call.2
  have hpanics : ¬StoreCall.Panics h st x call := by
    rintro ⟨p, hp⟩
    rw [hrun] at hp
    cases hp
  have htidy' := hz.tidy (hy.tidy htidy)
  rw [StoreCall.after, hrun]
  refine ⟨hpanics, hst', hsame.tidy htidy', fun hback => ?_⟩
  have hmisleads : StoreCall.Misleads h st x call ↔
      ∃ e ∈ call.2.made h st call.1 x.1, y.Misled e := by
    simp only [StoreCall.Misleads, hy.misled]
  rw [hmisleads, hsame.leadsBack]
  exact hz.leadsBack_iff (hy.tidy htidy) (hy.leadsBack.mpr hback)

/-- Whatever was called before, a reset puts back what is remembered. That is the line which the
user gave last, throughout a run, if and only if no event is added again on another line than the
one remembered of it. -/
theorem restores_unless_misled (hst : st.index < w.stores.size)
    (hevents : (w.store st).events = []) (hadjusted : (w.store st).adjusted = [])
    (calls : List (Scope × StoreCall)) :
    Nowhere (StoreCall.after h st) (StoreCall.Panics h st) (w, []) calls ∧
      Throughout (StoreCall.after h st) (fun x => ∀ c, ∃ w', st.Restored h c x.1 w') (w, []) calls ∧
      (Throughout (StoreCall.after h st) (StoreCall.ComesBack h st) (w, []) calls ↔
        Nowhere (StoreCall.after h st) (StoreCall.Misleads h st) (w, []) calls) := by
  let I (x : World σ × List Edit) : Prop := st.index < x.1.stores.size ∧ (x.1.store st).Tidy
  have hI (x call) (hx : I x) : I (StoreCall.after h st x call) := by
    obtain ⟨-, hst', htidy', -⟩ := discreet.perform_after hx.1 hx.2 call
    exact ⟨hst', htidy'⟩
  have hstart : I (w, []) := by
    refine ⟨hst, ?_, ?_⟩
    · rw [BreakpointStore.Distinct, hevents]
      exact List.nodup_nil
    · rw [hadjusted]
      exact List.nodup_nil
  refine ⟨?_, ?_, throughout_iff_nowhere (I := I) (C := fun _ => True) hI (fun _ _ _ _ => trivial)
    (fun x call hx _ hback => ?_) hstart trivial ?_⟩
  · exact nowhere_of_step hI (fun x call hx => (discreet.perform_after hx.1 hx.2 call).1) hstart
  · exact throughout_of_step hI (fun x hx c => discreet.restored hx.1 hx.2) hstart
  · obtain ⟨-, hst', htidy', hstep⟩ := discreet.perform_after hx.1 hx.2 call
    rw [discreet.comesBack_iff hst' htidy']
    exact hstep ((discreet.comesBack_iff hx.1 hx.2).mp hback)
  · refine (discreet.comesBack_iff hstart.1 hstart.2).mpr fun id e line he _ => ?_
    rw [BreakpointStore.get?, hevents] at he
    cases he

end Host.Discreet

end InUse

namespace Mirroring

theorem discreet : host.Discreet ⟨0⟩ where
  keeps := keeps _
  storeChanged := fun k st a => by
    refine Within.ite (fun _ w => ?_) (Within.pure ())
    exact ⟨(), { w with host := (w.host.1, w.host.2 ++ [a]) }, rfl, Nat.le_refl _, rfl, rfl⟩
  vetoes := fun _ _ => Within.pure false

def moves : List (Scope × StoreCall) :=
  [(caller, .edit (.add (Scripted.breakpoint 1 10))), (caller, .adjust ⟨1⟩ 12),
    (caller, .adjust ⟨1⟩ 14), (caller, .edit (.move ⟨1⟩ 30)), (caller, .adjust ⟨1⟩ 33)]

theorem comes_back_from_moves : host.Discreet ⟨0⟩ ∧ 0 < shared.stores.size ∧
    (shared.store ⟨0⟩).events = [] ∧ (shared.store ⟨0⟩).adjusted = [] ∧
    Throughout (StoreCall.after host ⟨0⟩) (StoreCall.ComesBack host ⟨0⟩) (shared, []) moves := by
  refine ⟨discreet, by decide, rfl, rfl, ?_⟩
  refine (discreet.restores_unless_misled (w := shared) (by decide) rfl rfl moves).2.2.mpr ?_
  exact ⟨by decide +kernel, by decide +kernel, by decide +kernel, by decide +kernel,
    by decide +kernel, trivial⟩

def readdition : List (Scope × StoreCall) :=
  [(caller, .edit (.add (Scripted.breakpoint 1 10))), (caller, .adjust ⟨1⟩ 12),
    (caller, .edit (.add (Scripted.breakpoint 1 20)))]

theorem not_back_after_readdition : ¬StoreCall.ComesBack host ⟨0⟩
    (readdition.foldl (StoreCall.after host ⟨0⟩) (shared, [])) := by
  intro hback
  obtain ⟨w', hw', hlines⟩ := hback caller
  have hevents : (w'.store ⟨0⟩).events = [Scripted.breakpoint 1 10] := by
    rw [hw'.events]
    decide +kernel
  have huser := hlines (Scripted.breakpoint 1 10) (by rw [hevents]; exact List.mem_cons_self) 10 rfl
  revert huser
  decide +kernel

end Mirroring

end DebugSession
