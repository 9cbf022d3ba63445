import SqlScribe.Syntax.Shape
/-! # What stars take in

In a select list the star of all columns stands for every column, and the star of a source for the
columns of that source. Whether an item of a list of selected items is taken in depends on what was
selected before it and what after it.

* `Term.isTaken`: an item is taken in by what stands before and behind it.
* `Term.survivors`: the items of a list that are not.
* `Term.mem_survivors`: where a survivor stands.
* `Term.survivors_concat_of_full`, `Term.survivors_concat_of_not_full`: the survivors when one more
  item is selected.
* `Term.countP_survivors`, `Term.not_isStarOf_of_mem_survivors`: at most one star of all columns
  survives, and no field whose source has its star selected. -/

namespace SqlScribe

/-- Equality of qualifiers looks at the schema and the name of a table, the identity of a query or
the word, so that it is symmetric and transitive. -/
instance : PartialEquivBEq Qualifier where
  symm {s s'} h := by
    change s.same s' = true at h
    change s'.same s = true
    cases s <;> cases s' <;> simp_all [Qualifier.same]
  trans {s s' s''} h h' := by
    change s.same s' = true at h
    change s'.same s'' = true at h'
    change s.same s'' = true
    cases s <;> cases s' <;> cases s'' <;> simp_all [Qualifier.same]

namespace Term

variable {before after xs : List Term} {s s' : Qualifier} {t u : Term}

/-- The term is a field or star. -/
def isColumn (t : Term) : Bool := t.isField || t.isStar

/-- The term is the star of all columns. -/
def isFullStar (t : Term) : Bool := t.isStar && t.qualifier?.isNone

/-- The term is the star of a source, whatever name the source goes by. -/
def isStarOf (s : Qualifier) (t : Term) : Bool := t.isStar && t.qualifier?.any (s == ·)

/-- A selected item is taken in by those that were selected before and after it. A column is taken
in by an earlier star of all columns; the first star of all columns takes the place of whatever was
selected before it; and the star of a source takes in the fields of the source, and later stars of
it. -/
def isTaken (before : List Term) (t : Term) (after : List Term) : Bool :=
  t.isColumn && before.any isFullStar
    || !t.isFullStar && !before.any isFullStar && after.any isFullStar
    || t.qualifier?.any fun s => before.any (isStarOf s) || !t.isStar && after.any (isStarOf s)

/-- The items of a list, behind others, that no item takes in. -/
def survivors (before : List Term) : List Term → List Term
  | [] => []
  | t :: after =>
    if isTaken before t after then survivors (before ++ [t]) after
    else t :: survivors (before ++ [t]) after

/-- The survivors keep their order. -/
theorem survivors_sublist (before xs : List Term) : (survivors before xs).Sublist xs := by
  induction xs generalizing before with
  | nil => exact .slnil
  | cons t xs ih =>
    rw [survivors]
    split
    · exact (ih (before ++ [t])).cons t
    · exact (ih (before ++ [t])).cons_cons t

/-- A survivor stands somewhere in the list, and neither what is before it nor what is behind it
takes it in. -/
theorem mem_survivors : t ∈ survivors before xs ↔
    ∃ mid after, xs = mid ++ t :: after ∧ isTaken (before ++ mid) t after = false := by
  induction xs generalizing before with
  | nil => simp [survivors]
  | cons x xs ih =>
    -- The item is the first one, or it stands among the others.
    have hsplit : (∃ mid after, x :: xs = mid ++ t :: after ∧
        isTaken (before ++ mid) t after = false) ↔
        (t = x ∧ isTaken before x xs = false) ∨ t ∈ survivors (before ++ [x]) xs := by
      rw [ih]
      constructor
      · rintro ⟨mid, after, heq, htaken⟩
        cases mid with
        | nil =>
          obtain ⟨rfl, rfl⟩ := List.cons.inj heq
          exact .inl ⟨rfl, by simpa using htaken⟩
        | cons y mid =>
          obtain ⟨rfl, rfl⟩ := List.cons.inj heq
          exact .inr ⟨mid, after, rfl, by simpa using htaken⟩
      · rintro (⟨rfl, htaken⟩ | ⟨mid, after, rfl, htaken⟩)
        · exact ⟨[], xs, rfl, by simpa using htaken⟩
        · exact ⟨x :: mid, after, rfl, by simpa using htaken⟩
    rw [hsplit, survivors]
    split
    · next htaken => simp [htaken]
    · next htaken => simp [htaken]

theorem isStarOf_congr (h : (s == s') = true) (t : Term) : t.isStarOf s = t.isStarOf s' := by
  have hqualifier (x : Qualifier) : (s == x) = (s' == x) := by
    rw [Bool.eq_iff_iff]
    exact ⟨fun hx => BEq.trans (BEq.symm h) hx, fun hx => BEq.trans h hx⟩
  simp only [isStarOf, hqualifier]

/-! ## One more item -/

/-- The term takes in an item that was selected before it, where there is no star of all columns
yet. -/
def takesBack (u t : Term) : Bool :=
  u.isFullStar || !t.isStar && t.qualifier?.any fun s => u.isStarOf s

theorem isColumn_of_qualifier? (h : t.qualifier? = some s) : t.isColumn = true := by
  unfold qualifier? at h
  unfold isColumn isField fieldName? isStar
  split at h <;> simp_all

theorem isTaken_of_full (h : before.any isFullStar = true) (t : Term) (after : List Term) :
    isTaken before t after = t.isColumn := by
  rw [isTaken, h]
  cases hq : t.qualifier? with
  | none => simp
  | some s => simp [isColumn_of_qualifier? hq]

/-- Where there is a star of all columns already, one more item takes in nothing. -/
theorem isTaken_concat_of_full (h : (before ++ t :: after).any isFullStar = true) (u : Term) :
    isTaken before t (after ++ [u]) = isTaken before t after := by
  cases hbefore : before.any isFullStar with
  | true => rw [isTaken_of_full hbefore, isTaken_of_full hbefore]
  | false =>
    cases hfull : t.isFullStar with
    | true =>
      -- The star of all columns itself belongs to no source.
      have hnone : t.qualifier? = none := by simp_all [isFullStar]
      simp [isTaken, hbefore, hfull, hnone]
    | false =>
      have hafter : after.any isFullStar = true := by simp_all
      simp [isTaken, hbefore, hfull, hafter]

/-- Where there is no star of all columns, one more item takes in what it takes in by itself. -/
theorem isTaken_concat_of_not_full (h : (before ++ [t]).any isFullStar = false) (u : Term) :
    isTaken before t (after ++ [u]) = (isTaken before t after || u.takesBack t) := by
  have hbefore : before.any isFullStar = false := by simp_all
  have hfull : t.isFullStar = false := by simp_all
  rw [isTaken, isTaken, takesBack, hbefore, hfull]
  cases hq : t.qualifier? with
  | none => simp
  | some s =>
    cases hstar : t.isStar <;> simp [Bool.or_assoc, Bool.or_comm, Bool.or_left_comm]

/-- Behind a star of all columns no item takes in earlier ones, and columns are taken in. -/
theorem survivors_concat_of_full (before : List Term)
    (h : (before ++ xs).any isFullStar = true) (u : Term) :
    survivors before (xs ++ [u]) = survivors before xs ++ if u.isColumn then [] else [u] := by
  induction xs generalizing before with
  | nil =>
    rw [List.append_nil] at h
    simp only [List.nil_append, survivors, isTaken_of_full h]
  | cons t xs ih =>
    have hrest := ih (before ++ [t]) (by simpa using h)
    rw [List.cons_append, survivors, survivors, isTaken_concat_of_full h, hrest]
    split
    · rfl
    · rfl

/-- Without a star of all columns, one more item takes in earlier ones, or is taken in itself. -/
theorem survivors_concat_of_not_full (before : List Term)
    (h : (before ++ xs).any isFullStar = false) (u : Term) :
    survivors before (xs ++ [u]) = (survivors before xs).filter (fun t => !u.takesBack t) ++
      if isTaken (before ++ xs) u [] then [] else [u] := by
  induction xs generalizing before with
  | nil => simp only [List.nil_append, List.append_nil, survivors, List.filter_nil]
  | cons t xs ih =>
    have hfirst : (before ++ [t]).any isFullStar = false := by simp_all
    have hrest := ih (before ++ [t]) (by simpa using h)
    rw [List.cons_append, survivors, survivors, isTaken_concat_of_not_full hfirst, hrest]
    cases htaken : isTaken before t xs <;> cases htakes : u.takesBack t <;> simp [htakes]

/-! ## Stars among the survivors -/

/-- At most one star of all columns survives. -/
theorem countP_survivors (before xs : List Term) :
    (survivors before xs).countP isFullStar ≤ if before.any isFullStar then 0 else 1 := by
  induction xs generalizing before with
  | nil => simp [survivors]
  | cons t xs ih =>
    have hrest := ih (before ++ [t])
    rw [survivors]
    cases hfull : t.isFullStar with
    | false =>
      have hsame : (before ++ [t]).any isFullStar = before.any isFullStar := by simp [hfull]
      rw [hsame] at hrest
      split
      · exact hrest
      · rwa [List.countP_cons_of_neg (by simp [hfull])]
    | true =>
      -- Nothing is left for the others, and the item counts only if it is the first of its kind.
      have hafter : (before ++ [t]).any isFullStar = true := by simp [hfull]
      rw [hafter, if_pos rfl, Nat.le_zero] at hrest
      split
      · rw [hrest]
        exact Nat.zero_le _
      · next htaken =>
        have hfirst : before.any isFullStar = false := by
          cases hbefore : before.any isFullStar with
          | false => rfl
          | true =>
            rw [isTaken_of_full hbefore] at htaken
            simp_all [isColumn, isFullStar]
        rw [List.countP_cons_of_pos (by simp [hfull]), hrest, hfirst]
        exact Nat.le_refl 1

/-- No field survives whose source has its star selected. -/
theorem not_isStarOf_of_mem_survivors (ht : t ∈ survivors [] xs) (hfield : t.isField = true)
    (hs : t.qualifier? = some s) : ∀ star ∈ xs, star.isStarOf s = false := by
  obtain ⟨before, after, rfl, htaken⟩ := mem_survivors.mp ht
  have hstar : t.isStar = false := by
    unfold isField fieldName? at hfield
    unfold isStar
    split at hfield <;> simp_all
  rw [List.nil_append, isTaken, hs, hstar] at htaken
  intro star hmem
  rcases List.mem_append.mp hmem with hbefore | hmem
  · simp_all
  · rcases List.mem_cons.mp hmem with rfl | hafter
    · rw [isStarOf, hstar, Bool.false_and]
    · simp_all

/-! ## What one more item does -/

theorem isField_of_qualifier? (h : t.qualifier? = some s) (hstar : t.isStar = false) :
    t.isField = true := by
  simpa [isColumn, hstar] using isColumn_of_qualifier? h

theorem isFullStar_of_qualifier? (h : t.qualifier? = some s) : t.isFullStar = false := by
  rw [isFullStar, h]
  exact Bool.and_false _

theorem isStarOf_of_qualifier? (h : t.qualifier? = some s) (s' : Qualifier) :
    t.isStarOf s' = (t.isStar && s' == s) := by
  rw [isStarOf, h]
  rfl

/-- An item that is no star takes in nothing. -/
theorem takesBack_of_not_star (hstar : u.isStar = false) (t : Term) : u.takesBack t = false := by
  simp only [takesBack, isFullStar, isStarOf, hstar, Bool.false_and, Bool.false_or]
  cases t.qualifier? <;> simp

/-- An item that is no star and is not taken in survives behind the others. -/
theorem survivors_concat_of_kept (hstar : u.isStar = false) (hkept : isTaken xs u [] = false) :
    survivors [] (xs ++ [u]) = survivors [] xs ++ [u] := by
  cases hfull : xs.any isFullStar with
  | true =>
    rw [isTaken_of_full hfull] at hkept
    rw [survivors_concat_of_full [] hfull, hkept, if_neg Bool.false_ne_true]
  | false =>
    have hnothing : ∀ t ∈ survivors [] xs, (!u.takesBack t) = true := fun t _ => by
      rw [takesBack_of_not_star hstar, Bool.not_false]
    rw [survivors_concat_of_not_full [] hfull, List.nil_append, hkept, if_neg Bool.false_ne_true,
      List.filter_eq_self.mpr hnothing]

/-- Where there is no star of all columns, a column is taken in at the end only by the star of its
source. -/
theorem exists_star_of_isTaken (hfull : xs.any isFullStar = false)
    (htaken : isTaken xs u [] = true) :
    ∃ s, u.qualifier? = some s ∧ xs.any (isStarOf s) = true := by
  rw [isTaken, hfull] at htaken
  cases hs : u.qualifier? with
  | none => simp [hs] at htaken
  | some s => exact ⟨s, rfl, by simpa [hs] using htaken⟩

/-- What is no column is not taken in at the end. -/
theorem isTaken_nil_of_not_column (hcolumn : u.isColumn = false) : isTaken xs u [] = false := by
  rw [isTaken, hcolumn]
  cases hs : u.qualifier? with
  | none => simp
  | some s =>
    rw [isColumn_of_qualifier? hs] at hcolumn
    cases hcolumn

/-- Where a column is kept, there is no star of all columns yet. -/
theorem any_isFullStar_of_kept (hcolumn : u.isColumn = true) (hkept : isTaken xs u [] = false) :
    xs.any isFullStar = false := by
  cases hfull : xs.any isFullStar with
  | false => rfl
  | true =>
    rw [isTaken_of_full hfull, hcolumn] at hkept
    cases hkept

/-- An item that is taken in changes nothing. -/
theorem survivors_concat_of_taken (htaken : isTaken xs u [] = true) :
    survivors [] (xs ++ [u]) = survivors [] xs := by
  cases hfull : xs.any isFullStar with
  | true =>
    rw [isTaken_of_full hfull] at htaken
    rw [survivors_concat_of_full [] hfull, htaken, if_pos rfl, List.append_nil]
  | false =>
    -- The item belongs to a source whose star is there, so that no field of it is left to take in.
    obtain ⟨s, hs, hstars⟩ := exists_star_of_isTaken hfull htaken
    have hnothing : ∀ t ∈ survivors [] xs, (!u.takesBack t) = true := by
      intro t ht
      rw [takesBack, isFullStar_of_qualifier? hs]
      cases hstar : t.isStar with
      | true => rfl
      | false =>
        cases hs' : t.qualifier? with
        | none => rfl
        | some s' =>
          have hnot := not_isStarOf_of_mem_survivors ht (isField_of_qualifier? hs' hstar) hs'
          cases hsame : s' == s with
          | false => simp [isStarOf_of_qualifier? hs, hsame]
          | true =>
            obtain ⟨star, hmem, hstar⟩ := List.any_eq_true.mp hstars
            rw [← isStarOf_congr hsame, hnot star hmem] at hstar
            cases hstar
    rw [survivors_concat_of_not_full [] hfull, List.nil_append, htaken, if_pos rfl, List.append_nil,
      List.filter_eq_self.mpr hnothing]

/-- The first star of all columns is all that is left. -/
theorem survivors_concat_of_first (hfull : xs.any isFullStar = false)
    (hu : u.isFullStar = true) : survivors [] (xs ++ [u]) = [u] := by
  have hnone : u.qualifier? = none := by simp_all [isFullStar]
  have hkept : isTaken xs u [] = false := by simp [isTaken, hfull, hnone]
  have hall : (survivors [] xs).filter (fun t => !u.takesBack t) = [] := by
    rw [List.filter_eq_nil_iff]
    intro t _
    simp [takesBack, hu]
  rw [survivors_concat_of_not_full [] hfull, List.nil_append, hkept, hall,
    if_neg Bool.false_ne_true, List.nil_append]

/-- The first star of a source takes the place of what there is of the source. -/
theorem survivors_concat_of_star (hs : u.qualifier? = some s) (hstar : u.isStar = true)
    (hkept : isTaken xs u [] = false) : survivors [] (xs ++ [u]) =
      (survivors [] xs).filter (fun t => !t.qualifier?.any (· == s)) ++ [u] := by
  have hfull := any_isFullStar_of_kept (isColumn_of_qualifier? hs) hkept
  have hfirst : xs.any (isStarOf s) = false := by
    rw [isTaken, hfull, hs] at hkept
    simpa using hkept
  have hsame : ∀ t ∈ survivors [] xs,
      (!u.takesBack t) = !t.qualifier?.any (· == s) := by
    intro t ht
    rw [takesBack, isFullStar_of_qualifier? hs]
    cases hs' : t.qualifier? with
    | none => simp
    | some s' =>
      cases ht' : t.isStar with
      | false => simp [isStarOf_of_qualifier? hs, hstar]
      | true =>
        -- A star of the source would have taken in the new one.
        obtain ⟨mid, after, rfl, -⟩ := mem_survivors.mp ht
        have hother : t.isStarOf s = false := by simp_all
        rw [isStarOf_of_qualifier? hs', ht', Bool.true_and] at hother
        have hother : (s' == s) = false := by
          cases hsame : s' == s with
          | false => rfl
          | true =>
            rw [BEq.symm hsame] at hother
            cases hother
        simp [hother]
  rw [survivors_concat_of_not_full [] hfull, List.nil_append, hkept, if_neg Bool.false_ne_true,
    List.filter_congr hsame]

end Term

end SqlScribe
