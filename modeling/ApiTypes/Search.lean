/-! Searching a finite set: what is left of it decreases with every item that is found. -/

namespace ApiTypes.Search

variable {α : Type} [BEq α]

/-- How many known items have not been seen. -/
def remaining (known seen : List α) : Nat := (known.filter fun item => !seen.contains item).length

/-- Seeing one more known item leaves fewer of them. -/
theorem remaining_cons_lt [LawfulBEq α] {known seen : List α} {item : α} (isKnown : item ∈ known)
    (fresh : seen.contains item = false) :
    remaining known (item :: seen) < remaining known seen := by
  -- The items left afterwards are among those left before, without the item itself.
  have split : (known.filter fun other => !(item :: seen).contains other) =
      (known.filter fun other => !seen.contains other).filter fun other => !(other == item) := by
    rw [List.filter_filter]
    congr 1
    funext other
    simp [Bool.not_or]
  rw [remaining, remaining, split]
  refine List.length_filter_lt_length_iff_exists.mpr ⟨item, ?_, by simp⟩
  exact List.mem_filter.mpr ⟨isKnown, by simpa using fresh⟩

/-- How many items following `next` from known items that have not been seen may still bring up. -/
def effort (next : α → Option (List α)) (seen : List α) : List α → Nat
  | [] => 0
  | item :: rest =>
    (if seen.contains item then 0 else (next item).elim 0 List.length + 1) + effort next seen rest

/-- Seeing one more item never adds to the effort that is left. -/
theorem effort_cons_le (next : α → Option (List α)) (item : α) (seen known : List α) :
    effort next (item :: seen) known ≤ effort next seen known := by
  -- What was seen before still is, so no known item counts more.
  induction known with
  | nil => exact Nat.le_refl 0
  | cons other rest ih =>
    simp only [effort, List.contains_cons]
    by_cases isSeen : seen.contains other
    · simpa [isSeen] using ih
    · by_cases same : (other == item) = true
      · simp only [same, Bool.true_or, if_true, isSeen]
        omega
      · simp only [same, isSeen, Bool.or_self, Bool.false_eq_true, if_false]
        omega

/-- Seeing one more known item takes everything that follows it out of the effort that is left. -/
theorem effort_cons_lt [LawfulBEq α] {next : α → Option (List α)} {item : α}
    {seen known more : List α} (isKnown : item ∈ known) (fresh : seen.contains item = false)
    (follows : next item = some more) :
    effort next (item :: seen) known + more.length < effort next seen known := by
  -- The item counts once where it stands first among the known ones; the others count no more.
  induction known with
  | nil => simp at isKnown
  | cons other rest ih =>
    simp only [effort]
    by_cases same : item = other
    · subst same
      have rest_le := effort_cons_le next item seen rest
      simp only [List.contains_cons, beq_self_eq_true, Bool.true_or, if_true, fresh, follows,
        Option.elim_some, Bool.false_eq_true, if_false]
      omega
    · have inRest : item ∈ rest := by simpa [same] using isKnown
      have rest_lt := ih inRest
      have head_eq : (item :: seen).contains other = seen.contains other := by
        simp [Ne.symm same]
      rw [head_eq]
      omega

/--
Everything that is found from some items by following `next`, beginning with what has been seen.
Known items are followed once and others as often as they occur; the search fails if `next` does.
-/
def explore [LawfulBEq α] (known : List α) (next : α → Option (List α)) (seen : List α) :
    List α → Option (List α)
  | [] => some seen
  | item :: rest =>
    if visited : seen.contains item then explore known next seen rest
    else
      match follows : next item with
      | none => none
      | some more =>
        if isKnown : item ∈ known then
          have := effort_cons_lt isKnown (by simpa using visited) follows
          explore known next (item :: seen) (more ++ rest)
        else explore known next seen rest
termination_by pending => effort next seen known + pending.length
decreasing_by
  all_goals simp only [List.length_append, List.length_cons]; omega

end ApiTypes.Search
