import Mathlib.Logic.Relation
import ApiTypes.Search

/-! What a search finds: exactly the known items that its start leads to through known items. -/

namespace ApiTypes.Search

variable {α : Type}

/-- What follows an item is defined and contains another item. -/
def Leads (next : α → Option (List α)) (item other : α) : Prop :=
  ∃ more, next item = some more ∧ other ∈ more

/-- An item is found, or it is unknown and something follows it all the same. -/
def Settled (known : List α) (next : α → Option (List α)) (found : List α) (item : α) : Prop :=
  item ∈ found ∨ item ∉ known ∧ (next item).isSome = true

variable {known : List α} {next : α → Option (List α)}

/-- A settled item that is known has been found. -/
theorem Settled.mem {found : List α} {item : α} (settled : Settled known next found item)
    (isKnown : item ∈ known) : item ∈ found :=
  settled.resolve_right fun unknown => unknown.1 isKnown

variable [BEq α] [LawfulBEq α]

/-- A search keeps what has been seen, and settles all that was pending. -/
theorem explore_settles {seen pending found : List α}
    (searched : explore known next seen pending = some found) :
    seen ⊆ found ∧ ∀ item ∈ pending, Settled known next found item := by
  -- What has been seen only grows, so an item is settled for good when its turn comes.
  fun_induction explore known next seen pending with
  | case1 seen =>
    cases searched
    exact ⟨fun _ isSeen => isSeen, by simp⟩
  | case2 seen item rest visited ih =>
    obtain ⟨kept, settled⟩ := ih searched
    refine ⟨kept, List.forall_mem_cons.mpr ⟨.inl (kept (by simpa using visited)), settled⟩⟩
  | case3 => cases searched
  | case4 seen item rest visited more follows isKnown _ ih =>
    obtain ⟨kept, settled⟩ := ih searched
    refine ⟨fun _ isSeen => kept (List.mem_cons_of_mem _ isSeen), List.forall_mem_cons.mpr
      ⟨.inl (kept List.mem_cons_self), fun other isLater =>
        settled other (List.mem_append_right _ isLater)⟩⟩
  | case5 seen item rest visited more follows unknown ih =>
    obtain ⟨kept, settled⟩ := ih searched
    exact ⟨kept, List.forall_mem_cons.mpr ⟨.inr ⟨unknown, by simp [follows]⟩, settled⟩⟩

/-- All that follows a found item is settled. -/
theorem explore_closed {seen pending found : List α}
    (searched : explore known next seen pending = some found) {item : α} (isFound : item ∈ found) :
    item ∈ seen ∨ ∃ more, next item = some more ∧ ∀ other ∈ more, Settled known next found other := by
  -- The item was seen before, or what follows it was put among the pending items.
  fun_induction explore known next seen pending with
  | case1 seen =>
    cases searched
    exact .inl isFound
  | case2 seen first rest visited ih => exact ih searched
  | case3 => cases searched
  | case4 seen first rest visited more follows isKnown _ ih =>
    rcases ih searched with isSeen | closed
    · rcases List.mem_cons.mp isSeen with rfl | earlier
      · exact .inr ⟨more, follows, fun other isNext =>
          (explore_settles searched).2 other (List.mem_append_left _ isNext)⟩
      · exact .inl earlier
    · exact .inr closed
  | case5 seen first rest visited more follows unknown ih => exact ih searched

/-- Whatever is found is known, and the pending items lead to it. -/
theorem explore_sound {seen pending found : List α}
    (searched : explore known next seen pending = some found) {item : α} (isFound : item ∈ found) :
    item ∈ seen ∨
      item ∈ known ∧ ∃ start ∈ pending, Relation.ReflTransGen (Leads next) start item := by
  -- An item was pending itself, or follows one that was.
  fun_induction explore known next seen pending with
  | case1 seen =>
    cases searched
    exact .inl isFound
  | case2 seen first rest visited ih =>
    refine (ih searched).imp_right fun ⟨isKnown, start, isPending, leads⟩ => ?_
    exact ⟨isKnown, start, List.mem_cons_of_mem _ isPending, leads⟩
  | case3 => cases searched
  | case4 seen first rest visited more follows isKnown _ ih =>
    rcases ih searched with isSeen | ⟨itemKnown, start, isPending, leads⟩
    · rcases List.mem_cons.mp isSeen with rfl | earlier
      · exact .inr ⟨isKnown, item, List.mem_cons_self, .refl⟩
      · exact .inl earlier
    · rcases List.mem_append.mp isPending with isNext | isLater
      · exact .inr ⟨itemKnown, first, List.mem_cons_self, .head ⟨more, follows, isNext⟩ leads⟩
      · exact .inr ⟨itemKnown, start, List.mem_cons_of_mem _ isLater, leads⟩
  | case5 seen first rest visited more follows unknown ih =>
    refine (ih searched).imp_right fun ⟨isKnown, start, isPending, leads⟩ => ?_
    exact ⟨isKnown, start, List.mem_cons_of_mem _ isPending, leads⟩

/-- A search in which something follows every item does not fail. -/
theorem isSome_explore (total : ∀ item, (next item).isSome = true) (seen pending : List α) :
    (explore known next seen pending).isSome = true := by
  -- Only an item that nothing follows would end the search early.
  fun_induction explore known next seen pending with
  | case1 => rfl
  | case2 _ _ _ _ ih => exact ih
  | case3 _ item _ _ follows => simpa [follows] using total item
  | case4 _ _ _ _ _ _ _ _ ih => exact ih
  | case5 _ _ _ _ _ _ _ ih => exact ih

/-- A search does not fail if something follows every item that its pending items lead to. -/
theorem isSome_explore_of_leads {seen pending : List α}
    (follows : ∀ start ∈ pending, ∀ item, Relation.ReflTransGen (Leads next) start item →
      (next item).isSome = true) : (explore known next seen pending).isSome = true := by
  -- What is put among the pending items follows one of them.
  fun_induction explore known next seen pending with
  | case1 => rfl
  | case2 _ _ _ _ ih => exact ih fun start isLater => follows start (List.mem_cons_of_mem _ isLater)
  | case3 _ item _ _ isNext => simpa [isNext] using follows item List.mem_cons_self item .refl
  | case4 _ first _ _ more isNext _ _ ih =>
    refine ih fun start isPending item leads => ?_
    rcases List.mem_append.mp isPending with isFollowing | isLater
    · exact follows first List.mem_cons_self item (.head ⟨more, isNext, isFollowing⟩ leads)
    · exact follows start (List.mem_cons_of_mem _ isLater) item leads
  | case5 _ _ _ _ _ _ _ ih =>
    exact ih fun start isLater => follows start (List.mem_cons_of_mem _ isLater)

/--
Where nothing follows unknown items, a search fails exactly if its start leads to an item without next.
-/
theorem isSome_explore_iff {start : List α}
    (bounded : ∀ item more, item ∉ known → next item = some more → more = []) :
    (explore known next [] start).isSome = true ↔ ∀ first ∈ start, ∀ item,
      Relation.ReflTransGen (Leads next) first item → (next item).isSome = true := by
  refine ⟨fun isSome first isFirst item leads => ?_, isSome_explore_of_leads⟩
  obtain ⟨found, searched⟩ := Option.isSome_iff_exists.mp isSome
  -- Along the way, every item has been found, or it is unknown and leads nowhere.
  have settled : Settled known next found item := by
    induction leads with
    | refl => exact (explore_settles searched).2 first isFirst
    | tail _ step ih =>
      obtain ⟨more, isNext, isMember⟩ := step
      rcases ih with isFound | ⟨unknown, _⟩
      · obtain ⟨_, same, closed⟩ := (explore_closed searched isFound).resolve_left (by simp)
        cases same.symm.trans isNext
        exact closed _ isMember
      · simp [bounded _ more unknown isNext] at isMember
  rcases settled with isFound | ⟨_, follows⟩
  · obtain ⟨more, isNext, _⟩ := (explore_closed searched isFound).resolve_left (by simp)
    simp [isNext]
  · exact follows

end ApiTypes.Search
