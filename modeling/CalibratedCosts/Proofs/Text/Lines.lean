import Mathlib
import CalibratedCosts.Text.Blank
import CalibratedCosts.Text.Lines

/-! # Cutting a text into lines

    A text can be cut at one separator, or at every character that Unicode counts
    as a line boundary.  Either way the parts hold nothing that was not in the
    text, and no boundary.
-/

namespace CalibratedCosts.Text

variable {cs ds : List Char} {c : Char}

/-! ## Section 1: line ends -/

/-- A text without carriage returns has its line ends as they should be. -/
theorem unifyLineEnds_eq_self (h : '\r' ∉ cs) : unifyLineEnds cs = cs := by
  induction cs with
  | nil => rfl
  | cons c rest ih =>
    obtain ⟨hc, hrest⟩ := List.ne_and_not_mem_of_not_mem_cons h
    rw [unifyLineEnds, ih hrest]
    · rintro _ rfl
      exact absurd rfl hc
    · rintro rfl
      exact absurd rfl hc

theorem not_mem_unifyLineEnds (cs : List Char) : '\r' ∉ unifyLineEnds cs := by
  fun_induction unifyLineEnds cs with
  | case1 rest ih => simp [ih]
  | case2 rest _ ih => simp [ih]
  | case3 c rest _ hc ih => simp [ih, Ne.symm hc]
  | case4 => simp

/-- Line ends are unified on either side of a place that is not inside one. -/
theorem unifyLineEnds_append (h : cs.getLast? = some '\r' → ds.head? ≠ some '\n') :
    unifyLineEnds (cs ++ ds) = unifyLineEnds cs ++ unifyLineEnds ds := by
  -- On the first text; only where it ends can the second one be part of a line end.
  fun_induction unifyLineEnds cs with
  | case1 rest ih =>
    have hrest : rest.getLast? = some '\r' → ds.head? ≠ some '\n' := by
      intro hlast
      apply h
      rw [List.getLast?_cons, List.getLast?_cons, hlast]
      rfl
    simp [unifyLineEnds, ih hrest]
  | case2 rest hnext ih =>
    have hrest : rest.getLast? = some '\r' → ds.head? ≠ some '\n' := by
      intro hlast
      apply h
      rw [List.getLast?_cons, hlast]
      rfl
    have hstart : ∀ more, rest ++ ds = '\n' :: more → False := by
      intro more hmore
      cases rest with
      | nil => exact h rfl (by rw [List.nil_append] at hmore; rw [hmore]; rfl)
      | cons d rest =>
        obtain ⟨rfl, -⟩ := List.cons.inj hmore
        exact hnext rest rfl
    rw [List.cons_append, unifyLineEnds, ih hrest, List.cons_append]
    exact hstart
  | case3 c rest hnext hc ih =>
    have hrest : rest.getLast? = some '\r' → ds.head? ≠ some '\n' := by
      intro hlast
      apply h
      rw [List.getLast?_cons, hlast]
      rfl
    rw [List.cons_append, unifyLineEnds, ih hrest, List.cons_append]
    · rintro _ rfl
      exact absurd rfl hc
    · rintro rfl
      exact absurd rfl hc
  | case4 => rfl

theorem unifyLineEnds_cons (h : c ≠ '\r') (cs : List Char) :
    unifyLineEnds (c :: cs) = c :: unifyLineEnds cs := by
  rw [unifyLineEnds]
  · rintro _ rfl
    exact absurd rfl h
  · rintro rfl
    exact absurd rfl h

/-- A character that is part of no line end stays where it is. -/
theorem unifyLineEnds_append_cons (h : c ≠ '\r') (h' : c ≠ '\n') (cs ds : List Char) :
    unifyLineEnds (cs ++ c :: ds) = unifyLineEnds cs ++ c :: unifyLineEnds ds := by
  rw [unifyLineEnds_append fun _ => by simpa using h', unifyLineEnds_cons h]

/-! ## Section 2: one separator -/

theorem forall_of_mem_splitAt {separator : Char} {part : List Char}
    (h : part ∈ splitAt separator cs) : ∀ c ∈ part, c ∈ cs ∧ c ≠ separator := by
  -- On the text; its first character goes to the first part of the rest.
  induction cs generalizing part with
  | nil =>
    cases List.mem_singleton.1 h
    simp
  | cons c rest ih =>
    rw [splitAt] at h
    split at h
    · rcases List.mem_cons.1 h with rfl | h
      · simp
      · exact fun d hd => ⟨List.mem_cons_of_mem _ (ih h d hd).1, (ih h d hd).2⟩
    · rename_i hc
      split at h
      · rename_i first parts hparts
        rw [hparts] at ih
        rcases List.mem_cons.1 h with rfl | h
        · rw [List.forall_mem_cons]
          refine ⟨⟨List.mem_cons_self, hc⟩, fun d hd => ?_⟩
          exact ⟨List.mem_cons_of_mem _ (ih List.mem_cons_self d hd).1,
            (ih List.mem_cons_self d hd).2⟩
        · have hmem := ih (List.mem_cons_of_mem _ h)
          exact fun d hd => ⟨List.mem_cons_of_mem _ (hmem d hd).1, (hmem d hd).2⟩
      · cases List.mem_singleton.1 h
        rw [List.forall_mem_singleton]
        exact ⟨List.mem_cons_self, hc⟩

theorem splitAt_of_not_mem {separator : Char} (h : separator ∉ cs) :
    splitAt separator cs = [cs] := by
  induction cs with
  | nil => rfl
  | cons c rest ih =>
    obtain ⟨hc, hrest⟩ := List.ne_and_not_mem_of_not_mem_cons h
    rw [splitAt, if_neg (Ne.symm hc), ih hrest]

theorem splitAt_append {separator : Char} (h : separator ∉ cs) (ds : List Char) :
    splitAt separator (cs ++ separator :: ds) = cs :: splitAt separator ds := by
  induction cs with
  | nil => rw [List.nil_append, splitAt, if_pos rfl]
  | cons c rest ih =>
    obtain ⟨hc, hrest⟩ := List.ne_and_not_mem_of_not_mem_cons h
    rw [List.cons_append, splitAt, if_neg (Ne.symm hc), ih hrest]

/-! ## Section 3: all boundaries -/

/-- Every boundary is a blank. -/
theorem isBlank_of_isLineBreak (h : isLineBreak c) : isBlank c := by
  simp only [isLineBreak, Bool.or_eq_true, Bool.and_eq_true, decide_eq_true_eq] at h
  simp only [isBlank, blankRuns, List.any_cons, List.any_nil, Bool.or_eq_true,
    Bool.and_eq_true, decide_eq_true_eq]
  omega

theorem forall_of_mem_linesAfter {line part : List Char} (h : part ∈ linesAfter line cs) :
    ∀ c ∈ part, c ∈ line ∨ c ∈ cs := by
  induction cs generalizing line with
  | nil =>
    rw [linesAfter] at h
    split at h
    · cases h
    · cases List.mem_singleton.1 h
      intro c hc
      exact .inl (List.mem_reverse.1 hc)
  | cons d rest ih =>
    rw [linesAfter] at h
    -- A break ends the line so far; the parts after it come from the rest
    -- alone.
    split at h
    · rcases List.mem_cons.1 h with rfl | h
      · intro c hc
        exact .inl (List.mem_reverse.1 hc)
      · intro c hc
        exact .inr (List.mem_cons_of_mem _ ((ih h c hc).resolve_left List.not_mem_nil))
    · intro c hc
      rcases ih h c hc with hc | hc
      · rcases List.mem_cons.1 hc with rfl | hc
        · exact .inr List.mem_cons_self
        · exact .inl hc
      · exact .inr (List.mem_cons_of_mem _ hc)

/-- A line holds characters of the text. -/
theorem forall_of_mem_lines {line : List Char} (h : line ∈ lines cs) : ∀ c ∈ line, c ∈ cs :=
  fun c hc => (forall_of_mem_linesAfter h c hc).resolve_left List.not_mem_nil

/-- A boundary ends the line. -/
theorem linesAfter_cons_of_isLineBreak (hc : isLineBreak c = true) (line cs : List Char) :
    linesAfter line (c :: cs) = line.reverse :: lines cs := by
  rw [linesAfter, if_pos hc]
  rfl

theorem linesAfter_append (h : ∀ c ∈ cs, isLineBreak c = false) (line ds : List Char) :
    linesAfter line (cs ++ ds) = linesAfter (cs.reverse ++ line) ds := by
  induction cs generalizing line with
  | nil => rfl
  | cons c rest ih =>
    obtain ⟨hc, hrest⟩ := List.forall_mem_cons.1 h
    rw [List.cons_append, linesAfter, hc, if_neg Bool.false_ne_true, ih hrest,
      List.reverse_cons, List.append_assoc, List.singleton_append]

/-- A text without boundaries is one line, unless it is empty. -/
theorem lines_of_forall (h : ∀ c ∈ cs, isLineBreak c = false) (hne : cs ≠ []) :
    lines cs = [cs] := by
  have hlines := linesAfter_append h [] []
  rw [List.append_nil, List.append_nil] at hlines
  rw [lines, hlines, linesAfter, if_neg (by simpa using hne), List.reverse_reverse]

/-- A text with a boundary has a first one. -/
theorem exists_first_isLineBreak (h : ∃ c ∈ cs, isLineBreak c = true) :
    ∃ before c after, cs = before ++ c :: after ∧ isLineBreak c = true ∧
      ∀ d ∈ before, isLineBreak d = false := by
  obtain ⟨c, hfind⟩ := Option.isSome_iff_exists.1 (List.find?_isSome.2 h)
  obtain ⟨hc, before, after, rfl, hbefore⟩ := List.find?_eq_some_iff_append.1 hfind
  exact ⟨before, c, after, rfl, hc, fun d hd => by simpa using hbefore d hd⟩

/-! ## Section 4: trimming -/

section Trimming

variable {dropped : Char → Bool}

theorem dropWhile_eq_self (h : ∀ c ∈ cs.head?, dropped c = false) : cs.dropWhile dropped = cs := by
  cases cs with
  | nil => rfl
  | cons c rest => exact List.dropWhile_cons_of_neg (by simp [h c rfl])

theorem trimBoth_eq_nil_iff : trimBoth dropped cs = [] ↔ ∀ c ∈ cs, dropped c := by
  unfold trimBoth
  rw [List.reverse_eq_nil_iff, List.dropWhile_eq_nil_iff]
  simp only [List.mem_reverse]
  constructor
  · intro h c hc
    rw [← List.takeWhile_append_dropWhile (p := dropped) (l := cs)] at hc
    rcases List.mem_append.1 hc with hc | hc
    · exact List.mem_takeWhile_imp hc
    · exact h c hc
  · exact fun h c hc => h c (List.dropWhile_subset dropped hc)

/-- Nothing is dropped before a character that stays, and the rest is dropped at
    the end. -/
theorem exists_trimBoth_append (h : ∀ c ∈ cs.head?, dropped c = false) :
    ∃ after, cs = trimBoth dropped cs ++ after ∧ ∀ c ∈ after, dropped c := by
  refine ⟨(cs.reverse.takeWhile dropped).reverse, ?_, fun c hc => ?_⟩
  · rw [trimBoth, dropWhile_eq_self h, ← List.reverse_append, List.takeWhile_append_dropWhile,
      List.reverse_reverse]
  · exact List.mem_takeWhile_imp (List.mem_reverse.1 hc)

theorem trimBoth_append_left (h : ∀ c ∈ cs, dropped c) (ds : List Char) :
    trimBoth dropped (cs ++ ds) = trimBoth dropped ds := by
  unfold trimBoth
  rw [List.dropWhile_append_of_pos h]

/-- What stays at both ends is all that stays. -/
theorem trimBoth_append (hds : ∀ d ∈ ds, dropped d) (hfirst : ∀ c ∈ cs.head?, dropped c = false)
    (hlast : ∀ c ∈ cs.getLast?, dropped c = false) : trimBoth dropped (cs ++ ds) = cs := by
  cases cs with
  | nil => exact trimBoth_eq_nil_iff.2 hds
  | cons c rest =>
    -- What is dropped stands at the end only.
    have hstart : ∀ d ∈ (c :: rest ++ ds).head?, dropped d = false := hfirst
    have hends : ∀ d ∈ (c :: rest).reverse.head?, dropped d = false := by
      rw [List.head?_reverse]
      exact hlast
    rw [trimBoth, dropWhile_eq_self hstart, List.reverse_append,
      List.dropWhile_append_of_pos (by simpa using hds), dropWhile_eq_self hends,
      List.reverse_reverse]

theorem trimBoth_eq_self (h : ∀ c ∈ cs, dropped c = false) : trimBoth dropped cs = cs := by
  have hnone : ∀ d ∈ ([] : List Char), dropped d := fun _ hd => absurd hd List.not_mem_nil
  have htrim := trimBoth_append hnone (fun c hc => h c (List.mem_of_mem_head? hc))
    (fun c hc => h c (List.mem_of_mem_getLast? hc))
  rwa [List.append_nil] at htrim

end Trimming

end CalibratedCosts.Text
