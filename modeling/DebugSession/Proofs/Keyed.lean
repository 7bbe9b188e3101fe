namespace DebugSession.Keyed

variable {α κ : Type} (key : α → κ)

theorem nodup_filter {xs : List α} (hdistinct : (xs.map key).Nodup) (p : α → Bool) :
    ((xs.filter p).map key).Nodup :=
  hdistinct.sublist (List.filter_sublist.map key)

theorem map_key_map {xs : List α} {f : α → α} (hf : ∀ x, key (f x) = key x) :
    (xs.map f).map key = xs.map key := by
  rw [List.map_map]
  congr 1
  funext x
  exact hf x

variable [DecidableEq κ]

theorem find?_of_mem {xs : List α} (hdistinct : (xs.map key).Nodup) {x : α} (hx : x ∈ xs) :
    xs.find? (key · == key x) = some x := by
  induction xs with
  | nil => cases hx
  | cons y rest ih =>
      rw [List.map_cons, List.nodup_cons] at hdistinct
      rcases List.mem_cons.mp hx with rfl | hmem
      · simp
      · have hne : key y ≠ key x := fun he => hdistinct.1 (he ▸ List.mem_map_of_mem hmem)
        rw [List.find?_cons_of_neg (by simpa using hne)]
        exact ih hdistinct.2 hmem

theorem filter_of_mem {xs : List α} (hdistinct : (xs.map key).Nodup) {x : α} (hx : x ∈ xs) :
    xs.filter (key · == key x) = [x] := by
  induction xs with
  | nil => cases hx
  | cons y rest ih =>
      rw [List.map_cons, List.nodup_cons] at hdistinct
      rcases List.mem_cons.mp hx with rfl | hmem
      · have hrest : rest.filter (key · == key x) = [] := by
          refine List.filter_eq_nil_iff.mpr fun z hz he => hdistinct.1 ?_
          rw [← eq_of_beq he]
          exact List.mem_map_of_mem hz
        simp [hrest]
      · have hne : key y ≠ key x := fun he => hdistinct.1 (he ▸ List.mem_map_of_mem hmem)
        rw [List.filter_cons_of_neg (by simpa using hne)]
        exact ih hdistinct.2 hmem

theorem find?_filter_ne (xs : List α) (k k' : κ) :
    (xs.filter (key · != k)).find? (key · == k') =
      if k' = k then none else xs.find? (key · == k') := by
  rw [List.find?_filter]
  by_cases hk : k' = k
  · rw [if_pos hk, List.find?_eq_none]
    intro x _ hx
    simp [hk] at hx
  · rw [if_neg hk]
    congr 1
    funext x
    by_cases hx : key x = k'
    · simp [hx, hk]
    · simp [hx]

/-- Replacing items by others of the same key. -/
theorem find?_map {xs : List α} {f : α → α} (hf : ∀ x, key (f x) = key x) (k : κ) :
    (xs.map f).find? (key · == k) = (xs.find? (key · == k)).map f := by
  rw [List.find?_map]
  congr 2
  funext x
  simp [hf]

end DebugSession.Keyed
