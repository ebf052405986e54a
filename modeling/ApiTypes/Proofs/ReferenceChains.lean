import ApiTypes.Synthesis.Operations
import Mathlib.Logic.Basic

/-!
Chains of references to shared parts. A part is found if fewer references than the limit lead to it:
the last step of the limit only follows a reference, and does not look at what that leads to.
-/

namespace ApiTypes

namespace Referable

variable {α : Type} {kind : String} {table : Table (Referable α)}

/-- The entry of a section to which a pointer leads. -/
def target? (kind : String) (table : Table (Referable α)) (pointer : String) :
    Option (Referable α) :=
  (Pointer.componentName? kind pointer).bind table.get?

/-- As many references lead from one entry to another, each of them to an entry of the section. -/
inductive Chain (kind : String) (table : Table (Referable α)) :
    Referable α → Nat → Referable α → Prop
  | here (entry : Referable α) : Chain kind table entry 0 entry
  | hop {pointer : String} {next last : Referable α} {hops : Nat}
    (found : target? kind table pointer = some next) (rest : Chain kind table next hops last) :
    Chain kind table (.reference pointer) (hops + 1) last

/-- Chains can be put together. -/
theorem Chain.append {start middle last : Referable α} {hops more : Nat}
    (first : Chain kind table start hops middle) (second : Chain kind table middle more last) :
    Chain kind table start (more + hops) last := by
  induction first with
  | here => exact second
  | hop found _ ih => exact .hop found (ih second)

/-- A chain begins with chains of any fewer references. -/
theorem Chain.exists_of_le {start last : Referable α} {hops fewer : Nat}
    (chain : Chain kind table start hops last) (isLess : fewer ≤ hops) :
    ∃ middle, Chain kind table start fewer middle := by
  induction chain generalizing fewer with
  | here entry =>
    have none : fewer = 0 := Nat.le_zero.mp isLess
    exact ⟨entry, none ▸ .here entry⟩
  | hop found _ ih =>
    cases fewer with
    | zero => exact ⟨_, .here _⟩
    | succ fewer =>
      have ⟨middle, rest⟩ := ih (Nat.le_of_succ_le_succ isLess)
      exact ⟨middle, .hop found rest⟩

/-- From an entry on a cycle there are chains of any length. -/
theorem Chain.exists_of_cycle {start : Referable α} {hops : Nat} (isPositive : 0 < hops)
    (cycle : Chain kind table start hops start) (length : Nat) :
    ∃ last, Chain kind table start length last := by
  -- The cycle is gone round often enough, and what is too much of that is left out.
  have rounds : ∀ times, Chain kind table start (hops * times) start := by
    intro times
    induction times with
    | zero => exact .here start
    | succ times ih => exact cycle.append ih
  exact (rounds length).exists_of_le (Nat.le_mul_of_pos_left length isPositive)

variable {path : String} {start : Referable α}

/-- A reference that leads to an entry takes one step. -/
theorem followWithin_reference {pointer : String} {next : Referable α}
    (found : target? kind table pointer = some next) (path : String) (steps : Nat) :
    followWithin kind table path (steps + 1) (.reference pointer) =
      next.followWithin kind table path steps := by
  unfold target? at found
  simp only [followWithin, found]

/-- A reference that leads nowhere is reported, as long as there is a step left to look at it. -/
theorem followWithin_dangling {pointer : String} (leadsNowhere : target? kind table pointer = none)
    (path : String) (steps : Nat) :
    followWithin kind table path (steps + 1) (.reference pointer) =
      .error ⟨path, .undefinedReference pointer⟩ := by
  unfold target? at leadsNowhere
  simp only [followWithin, leadsNowhere]

/-- A chain takes as many steps as it has references. -/
theorem Chain.followWithin_add {last : Referable α} {hops : Nat}
    (chain : Chain kind table start hops last) (path : String) (steps : Nat) :
    start.followWithin kind table path (steps + hops) =
      last.followWithin kind table path steps := by
  induction chain with
  | here => rfl
  | hop found _ ih => exact (followWithin_reference found path _).trans ih

/-- Behind fewer references than the limit, a step is left to look at an entry. -/
theorem Chain.exists_follow_eq {last : Referable α} {hops : Nat}
    (chain : Chain kind table start hops last) (isWithin : hops < hopLimit) (path : String) :
    ∃ steps, start.follow kind table path = last.followWithin kind table path (steps + 1) := by
  obtain ⟨steps, isRest⟩ := Nat.exists_eq_add_of_lt isWithin
  have goesOn := chain.followWithin_add path (steps + 1)
  rw [show steps + 1 + hops = hopLimit by omega] at goesOn
  exact ⟨steps, goesOn⟩

/-- What following references in a number of steps says about the chains from its start. -/
inductive Followed (kind : String) (table : Table (Referable α)) (path : String) (steps : Nat)
    (start : Referable α) : Except LocatedFailure α → Prop
  | found {hops : Nat} {value : α} (isWithin : hops < steps)
    (chain : Chain kind table start hops (.inline value)) :
    Followed kind table path steps start (.ok value)
  | dangling {hops : Nat} {pointer : String} (isWithin : hops < steps)
    (chain : Chain kind table start hops (.reference pointer))
    (leadsNowhere : target? kind table pointer = none) :
    Followed kind table path steps start (.error ⟨path, .undefinedReference pointer⟩)
  | tooLong {last : Referable α} (chain : Chain kind table start steps last) :
    Followed kind table path steps start (.error ⟨path, .circularAlias path⟩)

/-- A step before others makes every chain longer by one reference. -/
theorem Followed.hop {pointer : String} {steps : Nat} {next : Referable α}
    {result : Except LocatedFailure α} (found : target? kind table pointer = some next)
    (followed : Followed kind table path steps next result) :
    Followed kind table path (steps + 1) (.reference pointer) result := by
  cases followed with
  | found isWithin chain => exact .found (Nat.succ_lt_succ isWithin) (.hop found chain)
  | dangling isWithin chain leadsNowhere =>
    exact .dangling (Nat.succ_lt_succ isWithin) (.hop found chain) leadsNowhere
  | tooLong chain => exact .tooLong (.hop found chain)

/-- Following references ends in one of these ways. -/
theorem followed_followWithin (kind : String) (table : Table (Referable α)) (path : String)
    (steps : Nat) (start : Referable α) :
    Followed kind table path steps start (start.followWithin kind table path steps) := by
  -- The induction is on the steps that are left, and each of them looks at one entry of the chain.
  induction steps generalizing start with
  | zero => exact .tooLong (.here start)
  | succ steps ih =>
    cases start with
    | inline value => exact .found (Nat.succ_pos steps) (.here _)
    | reference pointer =>
      cases leads : target? kind table pointer with
      | none =>
        rw [followWithin_dangling leads]
        exact .dangling (Nat.succ_pos steps) (.here _) leads
      | some next =>
        rw [followWithin_reference leads]
        exact (ih next).hop leads

/-- Following references up to the limit ends in one of these ways. -/
theorem followed_follow (kind : String) (table : Table (Referable α)) (path : String)
    (start : Referable α) :
    Followed kind table path hopLimit start (start.follow kind table path) :=
  followed_followWithin kind table path hopLimit start

/-- A part is found exactly if it is written in place behind fewer references than the limit. -/
theorem follow_eq_ok_iff {value : α} :
    start.follow kind table path = .ok value ↔
      ∃ hops < hopLimit, Chain kind table start hops (.inline value) := by
  constructor
  · intro isFound
    have followed := followed_follow kind table path start
    rw [isFound] at followed
    cases followed with
    | found isWithin chain => exact ⟨_, isWithin, chain⟩
  · rintro ⟨hops, isWithin, chain⟩
    obtain ⟨steps, goesOn⟩ := chain.exists_follow_eq isWithin path
    exact goesOn

/-- A reference is reported exactly if it leads nowhere and stands behind fewer references than the
limit. -/
theorem follow_eq_undefinedReference_iff {pointer : String} :
    start.follow kind table path = .error ⟨path, .undefinedReference pointer⟩ ↔
      ∃ hops < hopLimit, Chain kind table start hops (.reference pointer) ∧
        target? kind table pointer = none := by
  constructor
  · intro isReported
    have followed := followed_follow kind table path start
    rw [isReported] at followed
    cases followed with
    | dangling isWithin chain leadsNowhere => exact ⟨_, isWithin, chain, leadsNowhere⟩
  · rintro ⟨hops, isWithin, chain, leadsNowhere⟩
    obtain ⟨steps, goesOn⟩ := chain.exists_follow_eq isWithin path
    exact goesOn.trans (followWithin_dangling leadsNowhere path steps)

/-- Following gives up exactly if there are as many references to follow as the limit allows,
whatever the last of them leads to. -/
theorem follow_eq_circularAlias_iff :
    start.follow kind table path = .error ⟨path, .circularAlias path⟩ ↔
      ∃ last, Chain kind table start hopLimit last := by
  constructor
  · intro givesUp
    have followed := followed_follow kind table path start
    rw [givesUp] at followed
    cases followed with
    | tooLong chain => exact ⟨_, chain⟩
  · rintro ⟨last, chain⟩
    have goesOn := chain.followWithin_add path 0
    rw [Nat.zero_add] at goesOn
    exact goesOn

/-- Following gives up on every cycle of references. -/
theorem follow_of_cycle {hops : Nat} (isPositive : 0 < hops)
    (cycle : Chain kind table start hops start) (path : String) :
    start.follow kind table path = .error ⟨path, .circularAlias path⟩ :=
  follow_eq_circularAlias_iff.mpr (cycle.exists_of_cycle isPositive hopLimit)

/-- Following finds a part exactly if fewer references than the limit lead to it, and reports a
reference exactly if it leads nowhere and as few lead to it. It gives up exactly if neither is so,
which is if there are as many references to follow as the limit allows; so it does on a cycle. -/
theorem follow_iff_chain (kind : String) (table : Table (Referable α)) (path : String)
    (start : Referable α) :
    (∀ value, start.follow kind table path = .ok value ↔
      ∃ hops < hopLimit, Chain kind table start hops (.inline value)) ∧
    (∀ pointer, start.follow kind table path = .error ⟨path, .undefinedReference pointer⟩ ↔
      ∃ hops < hopLimit, Chain kind table start hops (.reference pointer) ∧
        target? kind table pointer = none) ∧
    (start.follow kind table path = .error ⟨path, .circularAlias path⟩ ↔
      ∀ hops < hopLimit, (∀ value, ¬ Chain kind table start hops (.inline value)) ∧
        ∀ pointer, Chain kind table start hops (.reference pointer) →
          target? kind table pointer ≠ none) ∧
    (start.follow kind table path = .error ⟨path, .circularAlias path⟩ ↔
      ∃ last, Chain kind table start hopLimit last) ∧
    (∀ hops, 0 < hops → Chain kind table start hops start →
      start.follow kind table path = .error ⟨path, .circularAlias path⟩) := by
  refine ⟨fun _ => follow_eq_ok_iff, fun _ => follow_eq_undefinedReference_iff, ⟨?_, ?_⟩,
    follow_eq_circularAlias_iff, fun _ isPositive cycle => follow_of_cycle isPositive cycle path⟩
  · intro givesUp hops isWithin
    refine ⟨fun value chain => ?_, fun pointer chain leadsNowhere => ?_⟩
    · have isFound : start.follow kind table path = .ok value :=
        follow_eq_ok_iff.mpr ⟨hops, isWithin, chain⟩
      simp [givesUp] at isFound
    · have isReported : start.follow kind table path =
          .error ⟨path, .undefinedReference pointer⟩ :=
        follow_eq_undefinedReference_iff.mpr ⟨hops, isWithin, chain, leadsNowhere⟩
      simp [givesUp] at isReported
  · -- Of the ways in which following ends, only giving up is left.
    intro neither
    have followed := followed_follow kind table path start
    generalize start.follow kind table path = result at followed
    cases followed with
    | found isWithin chain => exact absurd chain ((neither _ isWithin).1 _)
    | dangling isWithin chain leadsNowhere =>
      exact absurd leadsNowhere ((neither _ isWithin).2 _ chain)
    | tooLong => rfl

/-- A reference to a shared parameter. -/
def toParameter (name : String) : Referable Parameter :=
  .reference (Pointer.sectionPrefix "parameters" ++ name)

/-- Eight shared parameters: the last one is written in place, and each other one refers to the
next. -/
def relays : Table (Referable Parameter) :=
  ⟨[("A", toParameter "B"), ("B", toParameter "C"), ("C", toParameter "D"), ("D", toParameter "E"),
    ("E", toParameter "F"), ("F", toParameter "G"), ("G", toParameter "H"),
    ("H", .inline { name := "q", location := .query })]⟩

/-- The limit is not enough for a chain of as many references: following gives up on a parameter
that is written in place behind just these. -/
theorem not_found_relays :
    Chain "parameters" relays (toParameter "A") hopLimit
      (.inline { name := "q", location := .query }) ∧
    ∀ path, (toParameter "A").follow "parameters" relays path =
      .error ⟨path, .circularAlias path⟩ := by
  have chain : Chain "parameters" relays (toParameter "A") hopLimit
      (.inline { name := "q", location := .query }) :=
    .hop rfl (.hop rfl (.hop rfl (.hop rfl (.hop rfl (.hop rfl (.hop rfl (.hop rfl
      (.here _))))))))
  exact ⟨chain, fun _ => follow_eq_circularAlias_iff.mpr ⟨_, chain⟩⟩

end Referable

end ApiTypes
