import ApiTypes.Pointer

/-!
Places in documents: what stands at a pointer or below it, and the pointers of component schemas. Escaping and
unescaping of pointer tokens are two replacements each, and the pointers of components are addresses: from
each of them the name of its component can be read back.
-/

namespace ApiTypes

namespace Pointer

/-- A pointer stands at a place, or below it. -/
def IsAt (place path : String) : Prop :=
  path = place ∨ ∃ rest, path = place ++ "/" ++ rest

/-- What stands below a pointer at a place is at the place itself. -/
theorem IsAt.below {place path : String} (isAt : IsAt place path) (rest : String) :
    IsAt place (path ++ "/" ++ rest) := by
  rcases isAt with rfl | ⟨before, rfl⟩
  · exact .inr ⟨rest, rfl⟩
  · exact .inr ⟨before ++ "/" ++ rest, by simp only [String.append_assoc]⟩

/-- What stands below something below a place stands below the place. -/
theorem IsAt.above {place path rest : String} (isAt : IsAt (place ++ "/" ++ rest) path) :
    IsAt place path := by
  rcases isAt with rfl | ⟨further, rfl⟩
  · exact .inr ⟨rest, rfl⟩
  · exact .inr ⟨rest ++ "/" ++ further, by simp only [String.append_assoc]⟩

/-- A place does not stand below itself. -/
theorem not_isAt_below (place rest : String) : ¬IsAt (place ++ "/" ++ rest) place := by
  have longer (suffix : String) : place ≠ place ++ "/" ++ suffix := fun isSame => by
    have lengths := congrArg String.length isSame
    simp only [String.length_append] at lengths
    have : "/".length = 1 := rfl
    omega
  rintro (isSame | ⟨further, isSame⟩)
  · exact longer rest isSame
  · rw [String.append_assoc, String.append_assoc, String.append_assoc] at isSame
    exact longer (rest ++ ("/" ++ further)) (by rw [String.append_assoc]; exact isSame)

/-- An escaped token has no slash in it. -/
theorem slash_notMem_escapeChars (chars : List Char) : '/' ∉ escapeChars chars := by
  fun_induction escapeChars chars with
  | case1 => simp
  | case2 rest ih => simpa using ih
  | case3 rest ih => simpa using ih
  | case4 char rest _ notSlash ih => simpa using ⟨fun isSlash => notSlash isSlash.symm, ih⟩

/-- An escaped token can be read back. -/
theorem unescapeChars_escapeChars (chars : List Char) : unescapeChars (escapeChars chars) = chars := by
  fun_induction escapeChars chars with
  | case1 => rfl
  | case2 rest ih => simp [unescapeChars, ih]
  | case3 rest ih => simp [unescapeChars, ih]
  | case4 char rest notTilde _ ih =>
    rw [unescapeChars, ih] <;> simp_all

/-- The pointer of a component schema does not stand at that of another one, or below. -/
theorem not_isAt_ofSchema {schema other : String} (isOther : other ≠ schema) :
    ¬IsAt (ofSchema other) (ofSchema schema) := by
  have same {left right : String}
      (isSame : sectionPrefix "schemas" ++ left = sectionPrefix "schemas" ++ right) :
      left = right := by
    simpa using isSame
  rintro (isSame | ⟨rest, isSame⟩)
  · refine isOther (String.toList_inj.mp ?_)
    have tokens := congrArg String.toList (same isSame)
    rw [escape, escape, String.toList_ofList, String.toList_ofList] at tokens
    rw [← unescapeChars_escapeChars other.toList, ← tokens, unescapeChars_escapeChars]
  · -- Only below another schema there would be one more slash.
    rw [ofSchema, ofSchema, String.append_assoc, String.append_assoc] at isSame
    have tokens := congrArg String.toList (same isSame)
    refine slash_notMem_escapeChars schema.toList ?_
    rw [escape, String.toList_ofList] at tokens
    rw [tokens]
    simp

/-- What stands behind a given beginning. -/
theorem after?_eq_some_iff {beginning text rest : List Char} :
    after? beginning text = some rest ↔ text = beginning ++ rest := by
  fun_induction after? beginning text with
  | case1 text => simp [eq_comm]
  | case2 => simp
  | case3 expected more rest ih => simp [ih]
  | case4 expected more char rest isOther =>
    simp only [reduceCtorEq, List.cons_append, List.cons.injEq, false_iff]
    exact fun isSame => isOther isSame.1.symm

/-- Every occurrence of a pattern replaced, from the left and without overlaps. -/
def replaceAll (first : Char) (more replacement : List Char) : List Char → List Char
  | [] => []
  | char :: rest =>
    match _ : after? (first :: more) (char :: rest) with
    | some behind => replacement ++ replaceAll first more replacement behind
    | none => char :: replaceAll first more replacement rest
termination_by text => text.length
decreasing_by
  · have lengths := congrArg List.length (after?_eq_some_iff.mp ‹_›)
    simp only [List.length_cons, List.length_append] at lengths ⊢
    omega
  · simp

section
variable {first char : Char} {more replacement text rest : List Char}

@[simp]
theorem replaceAll_nil : replaceAll first more replacement [] = [] := by rw [replaceAll]

/-- An occurrence of the pattern is replaced, and the search goes on behind it. -/
theorem replaceAll_cons_of_match (isMatch : text = more ++ rest) :
    replaceAll first more replacement (first :: text) =
      replacement ++ replaceAll first more replacement rest := by
  have isMatch : after? (first :: more) (first :: text) = some rest :=
    after?_eq_some_iff.mpr (congrArg (first :: ·) isMatch)
  rw [replaceAll]
  split
  · next behind isFound =>
    obtain rfl := Option.some.inj (isMatch.symm.trans isFound)
    rfl
  · next isNone => cases isMatch.symm.trans isNone

/-- A character with which the pattern does not begin stays. -/
theorem replaceAll_cons_of_ne (isOther : first ≠ char) :
    replaceAll first more replacement (char :: rest) =
      char :: replaceAll first more replacement rest := by
  have isNone : after? (first :: more) (char :: rest) = none := if_neg isOther
  rw [replaceAll]
  split
  · next isFound => cases isNone.symm.trans isFound
  · rfl

/-- The beginning of the pattern stays where the rest of the pattern does not follow. -/
theorem replaceAll_cons_of_not_match (isOther : ∀ behind, text ≠ more ++ behind) :
    replaceAll first more replacement (first :: text) =
      first :: replaceAll first more replacement text := by
  rw [replaceAll]
  split
  · next behind isFound =>
    have isSame := after?_eq_some_iff.mp isFound
    exact absurd (List.cons.inj isSame).2 (isOther behind)
  · rfl

end

/-- Escaping is two replacements, first of the tildes and then of the slashes. -/
theorem escapeChars_eq_replaceAll (chars : List Char) :
    escapeChars chars = replaceAll '/' [] ['~', '1'] (replaceAll '~' [] ['~', '0'] chars) := by
  fun_induction escapeChars chars with
  | case1 => simp
  | case2 rest ih =>
    have tildes : replaceAll '~' [] ['~', '0'] ('~' :: rest) =
        '~' :: '0' :: replaceAll '~' [] ['~', '0'] rest := replaceAll_cons_of_match rfl
    -- What is written for the tilde has no slash, so the second replacement leaves it alone.
    rw [tildes, replaceAll_cons_of_ne (by decide), replaceAll_cons_of_ne (by decide), ih]
  | case3 rest ih =>
    rw [replaceAll_cons_of_ne (by decide), ih]
    symm
    exact replaceAll_cons_of_match rfl
  | case4 char rest notTilde notSlash ih =>
    rw [replaceAll_cons_of_ne fun isTilde => notTilde isTilde.symm,
      replaceAll_cons_of_ne fun isSlash => notSlash isSlash.symm, ih]

/-- Where slashes were put back, a text begins with a zero only if it did before. -/
theorem exists_of_replaceAll_eq_zero {chars behind : List Char}
    (isZero : replaceAll '~' ['1'] ['/'] chars = '0' :: behind) : ∃ rest, chars = '0' :: rest := by
  rw [replaceAll.eq_def] at isZero
  split at isZero
  · cases isZero
  · next char rest =>
    split at isZero
    · cases isZero
    · exact ⟨rest, congrArg (· :: rest) (List.cons.inj isZero).1⟩

/-- Reading back is two replacements, first of the escaped slashes and then of the escaped tildes. -/
theorem unescapeChars_eq_replaceAll (chars : List Char) :
    unescapeChars chars = replaceAll '~' ['0'] ['~'] (replaceAll '~' ['1'] ['/'] chars) := by
  fun_induction unescapeChars chars with
  | case1 => simp
  | case2 rest ih =>
    -- A tilde before a zero waits for the second replacement.
    have slashes : replaceAll '~' ['1'] ['/'] ('~' :: '0' :: rest) =
        '~' :: '0' :: replaceAll '~' ['1'] ['/'] rest := by
      rw [replaceAll_cons_of_not_match (by simp), replaceAll_cons_of_ne (by decide)]
    rw [slashes, ih]
    symm
    exact replaceAll_cons_of_match rfl
  | case3 rest ih =>
    have slashes : replaceAll '~' ['1'] ['/'] ('~' :: '1' :: rest) =
        '/' :: replaceAll '~' ['1'] ['/'] rest := replaceAll_cons_of_match rfl
    -- A slash that was put back begins no escaped tilde.
    rw [slashes, replaceAll_cons_of_ne (by decide), ih]
  | case4 char rest notZero notOne ih =>
    by_cases isTilde : char = '~'
    · subst isTilde
      rw [replaceAll_cons_of_not_match fun behind isOne => notOne behind rfl isOne,
        replaceAll_cons_of_not_match, ih]
      -- The first replacement puts slashes, and so no zero, behind a tilde.
      intro behind isZero
      obtain ⟨after, isZero⟩ := exists_of_replaceAll_eq_zero isZero
      exact notZero after rfl isZero
    · rw [replaceAll_cons_of_ne fun isSame => isTilde isSame.symm,
        replaceAll_cons_of_ne fun isSame => isTilde isSame.symm, ih]

/-- An escaped text reads back as itself. -/
theorem unescape_escape (token : String) : unescape (escape token) = token := by
  rw [unescape, escape, String.toList_ofList, unescapeChars_escapeChars, String.ofList_toList]

/-- Only the empty text has the empty token. -/
theorem escapeChars_eq_nil_iff {chars : List Char} : escapeChars chars = [] ↔ chars = [] := by
  constructor
  · intro isEmpty
    rw [← unescapeChars_escapeChars chars, isEmpty, unescapeChars]
  · rintro rfl
    rfl

/-- The token in the pointer of a component schema. -/
theorem token?_ofSchema (name : String) :
    token? "schemas" (ofSchema name) = some (escapeChars name.toList) := by
  rw [token?, ofSchema, String.toList_append, escape, String.toList_ofList]
  exact after?_eq_some_iff.mpr rfl

/-- The pointer of a component schema names that component, unless its name is empty. -/
theorem schemaName?_ofSchema (name : String) :
    schemaName? (ofSchema name) = if name = "" then none else some name := by
  have noSlash : (escapeChars name.toList).contains '/' = false := by
    simpa using slash_notMem_escapeChars name.toList
  simp only [schemaName?, token?_ofSchema, noSlash, Bool.or_false, List.isEmpty_iff,
    escapeChars_eq_nil_iff, String.toList_eq_nil_iff, unescapeChars_escapeChars,
    String.ofList_toList]

/-- Different names have different pointers, also where one of them is empty. -/
theorem ofSchema_injective : Function.Injective ofSchema := by
  intro name other isSame
  by_cases isOther : name = other
  · exact isOther
  · exact absurd (.inl isSame.symm) (not_isAt_ofSchema isOther)

/-- Tokens, escaped and read back by two replacements each, come back whatever they hold and have no
slash while they are escaped; so each component but the one without a name is the one that its pointer
names, and no two components share a pointer. -/
theorem tokens_address_components :
    (∀ token, (escape token).toList =
      replaceAll '/' [] ['~', '1'] (replaceAll '~' [] ['~', '0'] token.toList)) ∧
    (∀ token, (unescape token).toList =
      replaceAll '~' ['0'] ['~'] (replaceAll '~' ['1'] ['/'] token.toList)) ∧
    (∀ token, unescape (escape token) = token ∧ '/' ∉ (escape token).toList) ∧
    (∀ name, schemaName? (ofSchema name) = if name = "" then none else some name) ∧
    Function.Injective ofSchema := by
  refine ⟨fun token => ?_, fun token => ?_, fun token => ⟨unescape_escape token, ?_⟩,
    schemaName?_ofSchema, ofSchema_injective⟩
  · rw [escape, String.toList_ofList, escapeChars_eq_replaceAll]
  · rw [unescape, String.toList_ofList, unescapeChars_eq_replaceAll]
  · rw [escape, String.toList_ofList]
    exact slash_notMem_escapeChars token.toList

example : schemaName? (ofSchema "a~1/b~01") = some "a~1/b~01" := by decide

end Pointer

end ApiTypes
