import DebugSession.Location
import DebugSession.Proofs.Pieces
import Mathlib.Data.List.Infix

namespace DebugSession.TypeNames

open Text

inductive Inquiry (α : Type)
  | done (result : α)
  | ask (question : String) (next : Option String → Inquiry α)

abbrev Transcript := List (String × Option String)

namespace Inquiry

variable {α β : Type}

def andThen : Inquiry α → (α → Inquiry β) → Inquiry β
  | done a, f => f a
  | ask question next, f => ask question fun answer => (next answer).andThen f

instance : Monad Inquiry where
  pure := done
  bind := andThen

def question (name : String) : Inquiry (Option String) := ask name done

def putTo {m : Type → Type} [Monad m] (resolver : String → m (Option String)) : Inquiry α → m α
  | done a => pure a
  | ask question next => do (next (← resolver question)).putTo resolver

/-- With these questions and answers an inquiry ends, and this is its result. -/
def Ends : Inquiry α → Transcript → α → Prop
  | done a, asked, b => asked = [] ∧ b = a
  | ask _ _, [], _ => False
  | ask question next, (name, answer) :: asked, b => name = question ∧ (next answer).Ends asked b

theorem ends_pure {a b : α} {asked : Transcript} :
    (pure a : Inquiry α).Ends asked b ↔ asked = [] ∧ b = a := Iff.rfl

theorem ends_question {name : String} {f : Option String → Inquiry α} {asked : Transcript}
    {b : α} : (question name >>= f).Ends asked b ↔
      ∃ answer rest, asked = (name, answer) :: rest ∧ (f answer).Ends rest b := by
  cases asked with
  | nil => exact ⟨False.elim, fun ⟨_, _, h, _⟩ => by cases h⟩
  | cons x rest =>
      constructor
      · rintro ⟨rfl, h⟩
        exact ⟨x.2, rest, rfl, h⟩
      · rintro ⟨answer, rest, ⟨⟩, h⟩
        exact ⟨rfl, h⟩

theorem ends_bind {x : Inquiry α} {f : α → Inquiry β} {asked : Transcript} {b : β} :
    (x >>= f).Ends asked b ↔
      ∃ first rest a, asked = first ++ rest ∧ x.Ends first a ∧ (f a).Ends rest b := by
  change (x.andThen f).Ends asked b ↔ _
  induction x generalizing asked with
  | done a =>
      constructor
      · exact fun h => ⟨[], asked, a, rfl, ⟨rfl, rfl⟩, h⟩
      · rintro ⟨_, rest, _, rfl, ⟨rfl, rfl⟩, h⟩
        exact h
  | ask question next ih =>
      cases asked with
      | nil =>
          refine ⟨False.elim, ?_⟩
          rintro ⟨first, rest, a, h, hfirst, -⟩
          obtain ⟨rfl, -⟩ := List.append_eq_nil_iff.mp h.symm
          exact hfirst
      | cons x asked =>
          obtain ⟨name, answer⟩ := x
          constructor
          · rintro ⟨rfl, h⟩
            obtain ⟨first, rest, a, rfl, hfirst, hrest⟩ := (ih answer).mp h
            exact ⟨(name, answer) :: first, rest, a, rfl, ⟨rfl, hfirst⟩, hrest⟩
          · rintro ⟨_ | ⟨⟨name', answer'⟩, first⟩, rest, a, h, hfirst, hrest⟩
            · exact hfirst.elim
            · cases h
              exact ⟨hfirst.1, (ih answer).mpr ⟨first, rest, a, rfl, hfirst.2, hrest⟩⟩

theorem putTo_bind {m : Type → Type} [Monad m] [LawfulMonad m]
    (resolver : String → m (Option String)) (x : Inquiry α) (f : α → Inquiry β) :
    (x >>= f).putTo resolver = x.putTo resolver >>= fun a => (f a).putTo resolver := by
  change (x.andThen f).putTo resolver = _
  induction x with
  | done a => exact (pure_bind a fun a => (f a).putTo resolver).symm
  | ask question next ih =>
      simp only [andThen, putTo, ih, bind_assoc]

end Inquiry

def endsSegment (t : List Char) (n : Nat) : Bool := (t.drop n).head?.all (· == '.')

def dotStarts (t : List Char) : List (List Char) := t.inits.filter fun s => endsSegment t s.length

def candidates (t : List Char) : List (List Char) := ((dotStarts t).filter (!·.isEmpty)).reverse

def heads (parts : List (List Char)) : List (List Char) :=
  (List.range parts.length).map fun n => joinDots (parts.take (n + 1))

theorem joinDots_cons (s : List Char) {parts : List (List Char)} (h : parts ≠ []) :
    joinDots (s :: parts) = s ++ '.' :: joinDots parts := by
  cases parts with
  | nil => exact absurd rfl h
  | cons t rest => rfl

theorem joinDots_append {xs ys : List (List Char)} (hxs : xs ≠ []) (hys : ys ≠ []) :
    joinDots (xs ++ ys) = joinDots xs ++ '.' :: joinDots ys := by
  induction xs with
  | nil => exact absurd rfl hxs
  | cons s rest ih =>
      cases rest with
      | nil => exact joinDots_cons s hys
      | cons t rest =>
          rw [List.cons_append, joinDots_cons s (by simp), ih (by simp),
            joinDots_cons s (List.cons_ne_nil t rest), List.append_assoc, List.cons_append]

theorem heads_cons (s : List Char) (rest : List (List Char)) :
    heads (s :: rest) = s :: (heads rest).map (s ++ '.' :: ·) := by
  rw [heads, List.length_cons, List.range_succ_eq_map, List.map_cons, List.map_map, heads,
    List.map_map]
  refine congrArg₂ _ rfl (List.map_congr_left fun n hn => ?_)
  have hrest : rest.take (n + 1) ≠ [] := by
    have hlt := List.mem_range.mp hn
    cases rest with
    | nil => cases hlt
    | cons t rest => exact List.cons_ne_nil t _
  exact joinDots_cons s hrest

theorem inits_filter_cons (c : Char) (r : List Char) : dotStarts (c :: r) =
    (if c == '.' then [[]] else []) ++ (dotStarts r).map (c :: ·) := by
  have hrest : (fun s => endsSegment (c :: r) s.length) ∘ (c :: ·) = fun s =>
      endsSegment r s.length := rfl
  rw [dotStarts, List.inits_cons, List.filter_cons, List.filter_map, hrest, ← dotStarts]
  cases hc : c == '.' <;> simp [endsSegment, hc]

/-- Segments joined from the first one on are the starts that end at a point or with the name. -/
theorem heads_segments (t : List Char) : heads (segments t) = dotStarts t := by
  fun_induction segments t with
  | case1 => rfl
  | case2 r ih => rw [heads_cons, ih, inits_filter_cons]; rfl
  | case3 c r hc hnil ih => exact absurd hnil (segments_ne_nil r)
  | case4 c r hc s rest heq ih =>
      have hpoint : (c == '.') = false := beq_eq_false_iff_ne.mpr hc
      rw [heq] at ih
      rw [heads_cons, inits_filter_cons, ← ih, heads_cons, hpoint]
      simp

section Asking

variable {m : Type → Type} [Monad m]

def askInTurn (ask : String → m (Option String)) (t : List Char) : List (List Char) → m (List Char)
  | [] => pure t
  | start :: rest => do
    match ← ask (String.ofList start) with
    | some answer => return answer.toList ++ t.drop start.length
    | none => askInTurn ask t rest

theorem resolveSegments_eq (ask : String → m (Option String)) (parts : List (List Char)) {n : Nat}
    (hn : n ≤ parts.length) : resolveSegments ask parts n =
      askInTurn ask (joinDots parts) (((heads parts).take n).filter (!·.isEmpty)).reverse := by
  induction n with
  | zero => rfl
  | succ n ih =>
      have htake : (heads parts).take (n + 1) =
          (heads parts).take n ++ [joinDots (parts.take (n + 1))] := by
        rw [List.take_add_one, heads, List.getElem?_map, List.getElem?_range (by omega)]
        rfl
      rw [resolveSegments, htake, List.filter_append, List.reverse_append]
      cases hempty : (joinDots (parts.take (n + 1))).isEmpty with
      | true => simp [hempty, ih (by omega)]
      | false =>
          -- What is left of the name after a start begins with the point, if anything is left.
          have hrest (answer : List Char) : joinDots (answer :: parts.drop (n + 1)) =
              answer ++ (joinDots parts).drop (joinDots (parts.take (n + 1))).length := by
            by_cases hdrop : parts.drop (n + 1) = []
            · have hall : parts.take (n + 1) = parts :=
                List.take_of_length_le (List.drop_eq_nil_iff.mp hdrop)
              rw [hdrop, hall, List.drop_length, List.append_nil]
              rfl
            · have htake : parts.take (n + 1) ≠ [] := by
                intro h
                rw [h] at hempty
                cases hempty
              have happend := joinDots_append htake hdrop
              rw [List.take_append_drop] at happend
              rw [happend, List.drop_left, joinDots_cons answer hdrop]
          simp only [hempty, hrest, ih (Nat.le_of_succ_le hn), Bool.not_false, List.filter_cons,
            List.filter_nil, if_true, List.reverse_cons, List.reverse_nil, List.nil_append,
            List.cons_append, askInTurn]
          rfl

/-- A name is resolved by asking for its starts, from the longest on. -/
theorem resolveName_eq (ask : String → m (Option String)) (t : List Char) :
    resolveName ask t = askInTurn ask t (candidates t) := by
  have hlength : (heads (segments t)).length = (segments t).length := by simp [heads]
  rw [resolveName, resolveSegments_eq ask _ le_rfl, joinDots_segments, ← hlength,
    List.take_length, heads_segments]
  rfl

end Asking

def unknown (starts : List (List Char)) : Transcript := starts.map (String.ofList ·, none)

/-- What is asked about a name and what takes its place: the name itself if none of its starts is
known, or else the answer for the longest that is, with what follows it. -/
inductive Resolved (t : List Char) : Transcript → List Char → Prop
  | unchanged : Resolved t (unknown (candidates t)) t
  | known {longer shorter : List (List Char)} {start : List Char} (answer : String)
      (h : candidates t = longer ++ start :: shorter) :
      Resolved t (unknown longer ++ [(String.ofList start, some answer)])
        (answer.toList ++ t.drop start.length)

def AfterPoint (written : List Char) : Prop :=
  ∃ before blanks, written = before ++ '.' :: blanks ∧ ∀ c ∈ blanks, isBlank c

/-- What is asked about a piece and what is written for it, after what is written already. Only a
name that follows no point is asked about and may change. -/
inductive Replaced (written : List Char) : Piece → Transcript → List Char → Prop
  | kept {p : Piece} (h : p.isName = false ∨ AfterPoint written) : Replaced written p [] p.text
  | resolved {t text : List Char} {asked : Transcript} (h : ¬AfterPoint written)
      (hname : Resolved t asked text) : Replaced written (.name t) asked text

inductive Rewritten : List Char → List Piece → Transcript → List Char → Prop
  | nil (written : List Char) : Rewritten written [] [] []
  | cons {written text out : List Char} {p : Piece} {ps : List Piece} {first asked : Transcript}
      (hp : Replaced written p first text) (hps : Rewritten (written ++ text) ps asked out) :
      Rewritten written (p :: ps) (first ++ asked) (text ++ out)

theorem ends_askInTurn {t out : List Char} {asked : Transcript} (starts : List (List Char)) :
    (askInTurn Inquiry.question t starts).Ends asked out ↔
      (asked = unknown starts ∧ out = t) ∨ ∃ longer start shorter answer,
        starts = longer ++ start :: shorter ∧
        asked = unknown longer ++ [(String.ofList start, some answer)] ∧
        out = answer.toList ++ t.drop start.length := by
  induction starts generalizing asked with
  | nil =>
      refine Inquiry.ends_pure.trans ⟨.inl, ?_⟩
      rintro (h | ⟨longer, start, shorter, answer, h, -⟩)
      · exact h
      · simp at h
  | cons s rest ih =>
      rw [askInTurn, Inquiry.ends_question]
      constructor
      · rintro ⟨_ | answer, tail, rfl, h⟩
        · obtain ⟨rfl, rfl⟩ | ⟨longer, start, shorter, answer, rfl, rfl, rfl⟩ := ih.mp h
          · exact .inl ⟨rfl, rfl⟩
          · exact .inr ⟨s :: longer, start, shorter, answer, rfl, rfl, rfl⟩
        · obtain ⟨rfl, rfl⟩ := h
          exact .inr ⟨[], s, rest, answer, rfl, rfl, rfl⟩
      · rintro (⟨rfl, rfl⟩ | ⟨_ | ⟨s', longer⟩, start, shorter, answer, h, rfl, rfl⟩)
        · exact ⟨none, unknown rest, rfl, ih.mpr (.inl ⟨rfl, rfl⟩)⟩
        · obtain ⟨rfl, rfl⟩ := List.cons.inj h
          exact ⟨some answer, [], rfl, rfl, rfl⟩
        · obtain ⟨rfl, rfl⟩ := List.cons.inj h
          exact ⟨none, _, rfl, ih.mpr (.inr ⟨longer, start, shorter, answer, rfl, rfl, rfl⟩)⟩

theorem ends_resolveName {t out : List Char} {asked : Transcript} :
    (resolveName Inquiry.question t).Ends asked out ↔ Resolved t asked out := by
  rw [resolveName_eq, ends_askInTurn]
  constructor
  · rintro (⟨rfl, rfl⟩ | ⟨longer, start, shorter, answer, h, rfl, rfl⟩)
    · exact .unchanged
    · exact .known answer h
  · rintro (_ | ⟨answer, h⟩)
    · exact .inl ⟨rfl, rfl⟩
    · exact .inr ⟨_, _, _, answer, h, rfl, rfl⟩

theorem followsPoint_reverse (written : List Char) :
    followsPoint written.reverse = true ↔ AfterPoint written := by
  have hpoint : isBlank '.' = false := by decide
  constructor
  · intro h
    obtain ⟨r, hr⟩ : ∃ r, written.reverse.dropWhile isBlank = '.' :: r := by
      rw [← List.head?_eq_some_iff]
      exact eq_of_beq h
    refine ⟨r.reverse, (written.reverse.takeWhile isBlank).reverse, ?_, ?_⟩
    · have happend := List.takeWhile_append_dropWhile (p := isBlank) (l := written.reverse)
      rw [hr] at happend
      rw [← List.reverse_inj]
      simpa using happend.symm
    · exact fun c hc => List.mem_takeWhile_imp (List.mem_reverse.mp hc)
  · rintro ⟨before, blanks, rfl, hblanks⟩
    rw [followsPoint, List.reverse_append, List.reverse_cons, List.append_assoc,
      List.dropWhile_append_of_pos (by simpa using hblanks)]
    simp [hpoint]

theorem ends_qualifyPiece {p : Piece} {written final : List Char} {asked : Transcript} :
    (qualifyPiece Inquiry.question written.reverse p).Ends asked final ↔
      ∃ text, final = (written ++ text).reverse ∧ Replaced written p asked text := by
  cases p with
  | quoted t | other c =>
      refine Inquiry.ends_pure.trans ⟨?_, ?_⟩
      · rintro ⟨rfl, rfl⟩
        exact ⟨_, (List.reverse_append ..).symm, .kept (.inl rfl)⟩
      · rintro ⟨_, rfl, ⟨⟩⟩
        exact ⟨rfl, List.reverse_append⟩
  | name t =>
      simp only [qualifyPiece]
      by_cases hpoint : AfterPoint written
      · rw [if_pos ((followsPoint_reverse written).mpr hpoint), Inquiry.ends_bind]
        constructor
        · rintro ⟨_, _, _, rfl, ⟨rfl, rfl⟩, ⟨rfl, rfl⟩⟩
          exact ⟨_, (List.reverse_append ..).symm, .kept (.inr hpoint)⟩
        · rintro ⟨_, rfl, _ | ⟨hno, _⟩⟩
          · exact ⟨[], [], t, rfl, ⟨rfl, rfl⟩, rfl, List.reverse_append⟩
          · exact absurd hpoint hno
      · rw [if_neg (mt (followsPoint_reverse written).mp hpoint), Inquiry.ends_bind]
        constructor
        · rintro ⟨first, _, text, rfl, htext, ⟨rfl, rfl⟩⟩
          rw [List.append_nil]
          exact ⟨text, (List.reverse_append ..).symm, .resolved hpoint (ends_resolveName.mp htext)⟩
        · rintro ⟨text, rfl, ⟨hkept⟩ | ⟨_, hname⟩⟩
          · obtain h | h := hkept
            · cases h
            · exact absurd h hpoint
          · exact ⟨asked, [], text, (List.append_nil asked).symm, ends_resolveName.mpr hname, rfl,
              List.reverse_append⟩

theorem ends_foldlM {ps : List Piece} {written final : List Char} {asked : Transcript} :
    (ps.foldlM (qualifyPiece Inquiry.question) written.reverse).Ends asked final ↔
      ∃ out, final = (written ++ out).reverse ∧ Rewritten written ps asked out := by
  induction ps generalizing written asked with
  | nil =>
      rw [List.foldlM_nil]
      refine Inquiry.ends_pure.trans ⟨?_, ?_⟩
      · rintro ⟨rfl, rfl⟩
        exact ⟨[], by rw [List.append_nil], .nil written⟩
      · rintro ⟨_, rfl, ⟨⟩⟩
        exact ⟨rfl, by rw [List.append_nil]⟩
  | cons p ps ih =>
      rw [List.foldlM_cons, Inquiry.ends_bind]
      constructor
      · rintro ⟨first, rest, _, rfl, hp, hps⟩
        obtain ⟨text, rfl, htext⟩ := ends_qualifyPiece.mp hp
        obtain ⟨out, rfl, hout⟩ := ih.mp hps
        exact ⟨text ++ out, by rw [List.append_assoc], .cons htext hout⟩
      · rintro ⟨_, rfl, _ | ⟨htext, hout⟩⟩
        refine ⟨_, _, _, rfl, ends_qualifyPiece.mpr ⟨_, rfl, htext⟩, ih.mpr ⟨_, ?_, hout⟩⟩
        rw [List.append_assoc]

/-- The inquiry into an expression ends with just the rewritings of its pieces. -/
theorem ends_qualify {e out : String} {asked : Transcript} :
    (qualify Inquiry.question e).Ends asked out ↔
      Rewritten [] (split e.toList) asked out.toList := by
  rw [qualify, Inquiry.ends_bind]
  have hfold (first : Transcript) (final : List Char) :
      ((split e.toList).foldlM (qualifyPiece Inquiry.question) []).Ends first final ↔
        ∃ out, final = out.reverse ∧ Rewritten [] (split e.toList) first out :=
    @ends_foldlM (split e.toList) [] final first
  constructor
  · rintro ⟨first, _, final, rfl, hps, ⟨rfl, rfl⟩⟩
    obtain ⟨out, rfl, hout⟩ := (hfold first final).mp hps
    simpa using hout
  · intro h
    refine ⟨asked, [], out.toList.reverse, (List.append_nil asked).symm, ?_, rfl, by simp⟩
    exact (hfold asked _).mpr ⟨out.toList, rfl, h⟩

theorem Rewritten.unchanged {written out : List Char} {ps : List Piece} {asked : Transcript}
    (h : Rewritten written ps asked out) (hnone : ∀ x ∈ asked, x.2 = none) :
    out = ps.flatMap Piece.text := by
  induction h with
  | nil => rfl
  | @cons _ text _ p _ _ _ hp _ ih =>
      obtain ⟨hfirst, hrest⟩ := List.forall_mem_append.mp hnone
      have htext : text = p.text := by
        obtain _ | ⟨-, hname⟩ := hp
        · rfl
        · obtain _ | ⟨answer, -⟩ := hname
          · rfl
          · cases hfirst _ (List.mem_append_right _ (List.mem_singleton_self _))
      rw [List.flatMap_cons, ih hrest, htext]

theorem pairwise_inits (t : List Char) : t.inits.Pairwise (·.length < ·.length) := by
  induction t with
  | nil => simp
  | cons c r ih =>
      rw [List.inits_cons, List.pairwise_cons, List.pairwise_map]
      refine ⟨?_, ih.imp fun h => Nat.succ_lt_succ h⟩
      simp

theorem pairwise_candidates (t : List Char) : (candidates t).Pairwise (·.length > ·.length) :=
  List.pairwise_reverse.mpr (((pairwise_inits t).filter _).filter _)

theorem mem_candidates {t s : List Char} :
    s ∈ candidates t ↔ s ≠ [] ∧ (t = s ∨ ∃ rest, t = s ++ '.' :: rest) := by
  simp only [candidates, dotStarts, List.mem_reverse, List.mem_filter, List.mem_inits,
    Bool.not_eq_true', List.isEmpty_eq_false_iff, and_comm (b := s ≠ [])]
  refine and_congr_right fun _ => ⟨?_, ?_⟩
  · rintro ⟨⟨rest, rfl⟩, hend⟩
    rw [endsSegment, List.drop_left] at hend
    cases rest with
    | nil => exact .inl (List.append_nil s)
    | cons c rest =>
        obtain rfl : c = '.' := by simpa using hend
        exact .inr ⟨rest, rfl⟩
  · rintro (rfl | ⟨rest, rfl⟩)
    · exact ⟨List.prefix_refl t, by simp [endsSegment]⟩
    · exact ⟨List.prefix_append s _, by simp [endsSegment]⟩

section Resolvers

variable {m : Type → Type} [Monad m] (resolver : String → m (Option String))

theorem putTo_askInTurn (t : List Char) (starts : List (List Char)) :
    (askInTurn Inquiry.question t starts).putTo resolver = askInTurn resolver t starts := by
  induction starts with
  | nil => rfl
  | cons start rest ih =>
      refine congrArg (resolver (String.ofList start) >>= ·) (funext fun answer => ?_)
      cases answer with
      | none => exact ih
      | some answer => rfl

variable [LawfulMonad m]

theorem putTo_qualifyPiece (written : List Char) (p : Piece) :
    (qualifyPiece Inquiry.question written p).putTo resolver = qualifyPiece resolver written p := by
  cases p with
  | quoted t | other c => rfl
  | name t =>
      simp only [qualifyPiece]
      split
      · rw [Inquiry.putTo_bind]
        rfl
      · rw [Inquiry.putTo_bind, resolveName_eq, resolveName_eq, putTo_askInTurn]
        rfl

theorem putTo_foldlM (ps : List Piece) (written : List Char) :
    (ps.foldlM (qualifyPiece Inquiry.question) written).putTo resolver =
      ps.foldlM (qualifyPiece resolver) written := by
  induction ps generalizing written with
  | nil => rfl
  | cons p ps ih =>
      rw [List.foldlM_cons, List.foldlM_cons, Inquiry.putTo_bind, putTo_qualifyPiece]
      simp only [ih]

/-- Whoever resolves types, and however, is asked as the inquiry asks. -/
theorem putTo_qualify (e : String) :
    (qualify Inquiry.question e).putTo resolver = qualify resolver e := by
  rw [qualify, Inquiry.putTo_bind, putTo_foldlM]
  rfl

end Resolvers

def Answers {ρ : Type} (resolver : String → StateM ρ (Option String)) : ρ → Transcript → ρ → Prop
  | s, [], s' => s' = s
  | s, (name, answer) :: asked, s' =>
    answer = ((resolver name).run s).1 ∧ Answers resolver ((resolver name).run s).2 asked s'

theorem Inquiry.answered {ρ α : Type} (resolver : String → StateM ρ (Option String))
    (x : Inquiry α) (s : ρ) : ∃ asked, Answers resolver s asked ((x.putTo resolver).run s).2 ∧
      x.Ends asked ((x.putTo resolver).run s).1 := by
  induction x generalizing s with
  | done a => exact ⟨[], rfl, rfl, rfl⟩
  | ask name next ih =>
      obtain ⟨asked, hanswers, hends⟩ := ih ((resolver name).run s).1 ((resolver name).run s).2
      exact ⟨(name, ((resolver name).run s).1) :: asked, ⟨rfl, hanswers⟩, rfl, hends⟩

/-- Whatever the text of an expression: it is split into its pieces within its bounds, and they are
the only ones it consists of. Only names that follow no point may change, each to the answer for the
longest start that the resolver knows, with what follows it. Starts are asked for from the longest
on up to the first answer, and nothing else is asked, so that an expression in which no name is
known stays as it is. -/
theorem rewrites_known_names (e : String) :
    (∀ i (h : i < e.toList.toArray.size), i < pieceEnd e.toList.toArray i h ∧
      pieceEnd e.toList.toArray i h ≤ e.toList.toArray.size) ∧
    piecesFrom e.toList.toArray 0 = split e.toList ∧
    (∀ ps, Consists e.toList ps ↔ split e.toList = ps) ∧
    (split e.toList).flatMap Piece.text = e.toList ∧
    (∀ t, (candidates t).Pairwise (·.length > ·.length) ∧
      ∀ s, s ∈ candidates t ↔ s ≠ [] ∧ (t = s ∨ ∃ rest, t = s ++ '.' :: rest)) ∧
    (∀ asked out, (qualify Inquiry.question e).Ends asked out ↔
      Rewritten [] (split e.toList) asked out.toList) ∧
    (∀ asked out, (qualify Inquiry.question e).Ends asked out → (∀ x ∈ asked, x.2 = none) →
      out = e) ∧
    ∀ l : SourceLocation,
      (∀ (m : Type → Type) [Monad m] [LawfulMonad m]
        (types : String → SourceLocation → m (Option String)),
        qualify (types · l) e = (qualify Inquiry.question e).putTo (types · l)) ∧
      ∀ (ρ : Type) (types : String → SourceLocation → StateM ρ (Option String)) (s : ρ), ∃ asked,
        Answers (types · l) s asked ((qualify (types · l) e).run s).2 ∧
        Rewritten [] (split e.toList) asked ((qualify (types · l) e).run s).1.toList := by
  refine ⟨pieceEnd_bounds _, ?_, fun ps => consists_iff, split_text _, ?_, fun asked out =>
    ends_qualify, ?_, fun l => ⟨?_, ?_⟩⟩
  · exact piecesFrom_eq 0
  · exact fun t => ⟨pairwise_candidates t, fun s => mem_candidates⟩
  · intro asked out hends hnone
    have hout := (ends_qualify.mp hends).unchanged hnone
    rwa [split_text, String.toList_inj] at hout
  · intro m _ _ types
    exact (putTo_qualify (types · l) e).symm
  · intro ρ types s
    obtain ⟨asked, hanswers, hends⟩ := (qualify Inquiry.question e).answered (types · l) s
    rw [putTo_qualify] at hanswers hends
    exact ⟨asked, hanswers, ends_qualify.mp hends⟩

def knowing (name : String) (_ : SourceLocation) : StateM (List String) (Option String) := do
  modify (· ++ [name])
  return if name = "IO" then some "System.IO" else none

/-- A name after a point and a blank is kept, and so is text whose quote is never closed. -/
theorem rewrites_unclosed_text : ∃ asked,
    Answers (knowing · {}) [] asked ["x.", "x", "IO.Path", "IO"] ∧
    Rewritten [] (split "x. IO + IO.Path('IO".toList) asked "x. IO + System.IO.Path('IO".toList := by
  have hrun : (qualify (knowing · {}) "x. IO + IO.Path('IO").run [] =
      ("x. IO + System.IO.Path('IO", ["x.", "x", "IO.Path", "IO"]) := by
    change (_ : String × List String) = _
    decide +kernel
  obtain ⟨-, -, -, -, -, -, -, hresolvers⟩ := rewrites_known_names "x. IO + IO.Path('IO"
  obtain ⟨asked, hanswers, hrewritten⟩ := (hresolvers {}).2 _ knowing []
  rw [hrun] at hanswers hrewritten
  exact ⟨asked, hanswers, hrewritten⟩

end DebugSession.TypeNames
