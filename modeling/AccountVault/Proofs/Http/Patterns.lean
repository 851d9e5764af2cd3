import Mathlib
import AccountVault.Http.Route

/-!
# Patterns of routes

A text without a colon or an asterisk is a pattern of literal characters, which matches that text
and nothing else. Followed by a parameter it matches the text with one more segment, and the
parameter stands for the segment. In general a pattern that can be read has as many parameters as
its text has colons, and no asterisk; a path that it matches gives each parameter one value.
-/

namespace AccountVault.Http

/-- No character of the text has a meaning of its own in a pattern. -/
def Plain (text : List Char) : Prop := ∀ c ∈ text, c ≠ ':' ∧ c ≠ '*'

instance (text : List Char) : Decidable (Plain text) :=
  inferInstanceAs (Decidable (∀ c ∈ text, c ≠ ':' ∧ c ≠ '*'))

def IsSegment (text : String) : Prop := text ≠ "" ∧ '/' ∉ text.toList

instance (text : String) : Decidable (IsSegment text) :=
  inferInstanceAs (Decidable (text ≠ "" ∧ '/' ∉ text.toList))

theorem plain_append {first second : List Char} :
    Plain (first ++ second) ↔ Plain first ∧ Plain second := by
  simp only [Plain, List.forall_mem_append]

theorem mem_star_append {first : List Char} (plain : Plain first) (second : List Char) :
    '*' ∈ first ++ second ↔ '*' ∈ second := by
  rw [List.mem_append, or_iff_right fun mem => (plain _ mem).2 rfl]

theorem count_colon_append {first : List Char} (plain : Plain first) (second : List Char) :
    (first ++ second).count ':' = second.count ':' := by
  rw [List.count_append, List.count_eq_zero.2 fun mem => (plain _ mem).1 rfl, Nat.zero_add]

theorem takeWhile_of_slashless {text : List Char} (single : '/' ∉ text) :
    text.takeWhile (· ≠ '/') = text := by
  apply List.takeWhile_eq_self_iff.2
  intro c hc
  simpa using fun slash : c = '/' => single (slash ▸ hc)

def Piece.isParameter : Piece → Bool
  | literal _ => false
  | parameter _ => true

namespace Pattern

theorem parseFrom_literals (pattern : String) {text : List Char} (plain : Plain text)
    (rounds seen : Nat) (rest : List Char) :
    parseFrom pattern (text.length + rounds) seen (text ++ rest) =
      (parseFrom pattern rounds seen rest).map (text.map Piece.literal ++ ·) := by
  induction text with
  | nil =>
    rw [List.length_nil, Nat.zero_add, List.nil_append]
    cases parseFrom pattern rounds seen rest <;> rfl
  | cons c text ih =>
    have ordinary := plain c (by simp)
    have next := ih fun d hd => plain d (List.mem_cons_of_mem c hd)
    have count : (c :: text).length + rounds = text.length + rounds + 1 := by
      rw [List.length_cons]
      omega
    rw [count, List.cons_append, parseFrom, next]
    simp only [ordinary.1, ordinary.2, decide_false, Bool.or_self, Bool.false_eq_true, if_false]
    cases parseFrom pattern rounds seen rest <;> rfl

theorem parse_literals {pattern : String} (rooted : pattern.startsWith "/" = true)
    (plain : Plain pattern.toList) :
    parse pattern = .ok (pattern.toList.map .literal) := by
  have read := parseFrom_literals pattern plain 1 0 []
  rw [List.append_nil] at read
  rw [parse, if_pos rooted, read]
  simp [parseFrom, Except.map]

theorem parse_parameter {pattern text name : String} (rooted : pattern.startsWith "/" = true)
    (split : pattern = text ++ ":" ++ name) (plain : Plain text.toList)
    (named : Plain name.toList) (segment : IsSegment name) :
    parse pattern = .ok (text.toList.map .literal ++ [.parameter name]) := by
  have chars : pattern.toList = text.toList ++ ':' :: name.toList := by simp [split]
  have rounds : pattern.toList.length + 1 = text.toList.length + (name.toList.length + 1 + 1) := by
    rw [chars]
    simp only [List.length_append, List.length_cons]
    omega
  have whole := takeWhile_of_slashless segment.2
  have single : (name.toList.any fun d => d = ':' || d = '*') = false := by
    rw [List.any_eq_false]
    intro c hc
    simp [named c hc]
  have filled : name.toList.isEmpty = false := by
    simpa [List.isEmpty_eq_false_iff] using segment.1
  have read : parseFrom pattern (name.toList.length + 1 + 1) 0 (':' :: name.toList) =
      .ok [.parameter name] := by
    rw [parseFrom]
    simp only [decide_true, Bool.true_or, if_true, whole, single, filled, Bool.false_eq_true,
      if_false, Char.reduceEq, mostParameters, List.drop_length, parseFrom,
      String.ofList_toList]
    rfl
  rw [parse, if_pos rooted, rounds, chars, parseFrom_literals pattern plain, read]
  rfl

theorem parameters_parseFrom {pattern : String} {rounds seen : Nat} {text : List Char}
    {pieces : List Piece} (enough : text.length < rounds)
    (h : parseFrom pattern rounds seen text = .ok pieces) :
    '*' ∉ text ∧ pieces.countP Piece.isParameter = text.count ':' := by
  induction rounds generalizing seen text pieces with
  | zero => omega
  | succ rounds ih =>
    cases text with
    | nil =>
      simp only [parseFrom] at h
      cases h
      simp
    | cons c rest =>
      rw [List.length_cons] at enough
      rw [parseFrom] at h
      dsimp only at h
      split_ifs at h with mark two unnamed star most
      · split at h <;> cases h
      · split at h
        · rename_i further read
          cases h
          have colon : c = ':' := by simpa [star] using mark
          have split := List.prefix_iff_eq_append.1 (List.takeWhile_prefix (· ≠ '/') (l := rest))
          have bare : Plain (rest.takeWhile (· ≠ '/')) := by simpa [Plain] using two
          have shorter : (rest.drop (rest.takeWhile (· ≠ '/')).length).length < rounds := by
            rw [List.length_drop]
            omega
          obtain ⟨starless, counted⟩ := ih shorter read
          -- The name of the parameter has neither an asterisk nor a colon.
          have unstarred := mem_star_append bare (rest.drop (rest.takeWhile (· ≠ '/')).length)
          have uncounted := count_colon_append bare (rest.drop (rest.takeWhile (· ≠ '/')).length)
          rw [split] at unstarred uncounted
          constructor
          · rw [List.mem_cons, not_or]
            exact ⟨Ne.symm star, fun mem => starless (unstarred.1 mem)⟩
          · rw [List.countP_cons_of_pos rfl, counted, colon, List.count_cons_self, uncounted]
        · cases h
      · split at h
        · rename_i further read
          cases h
          obtain ⟨starless, counted⟩ := ih (by omega) read
          have ordinary : c ≠ ':' ∧ c ≠ '*' := by simpa using mark
          rw [List.countP_cons_of_neg (by simp [Piece.isParameter]), counted,
            List.count_cons_of_ne ordinary.1]
          exact ⟨by simp [starless, ordinary.2.symm], rfl⟩
        · cases h

theorem parameters_parse {pattern : String} {pieces : List Piece} (h : parse pattern = .ok pieces) :
    '*' ∉ pattern.toList ∧ pieces.countP Piece.isParameter = pattern.toList.count ':' := by
  unfold parse at h
  split_ifs at h
  exact parameters_parseFrom (Nat.lt_succ_self _) h

theorem captures?_nil {path : List Char} {captures : List Capture} :
    captures? [] path = some captures ↔ path = [] ∧ captures = [] := by
  cases path <;> simp [captures?, eq_comm]

theorem captures?_literals_append {text path : List Char} {pieces : List Piece}
    {captures : List Capture} :
    captures? (text.map .literal ++ pieces) path = some captures ↔
      ∃ rest, path = text ++ rest ∧ captures? pieces rest = some captures := by
  induction text generalizing path with
  | nil => simp
  | cons c text ih =>
    cases path with
    | nil => simp [captures?]
    | cons d path =>
      rw [List.map_cons, List.cons_append, captures?]
      by_cases same : c = d
      · rw [if_pos same, ih]
        simp [same]
      · rw [if_neg same]
        simp [Ne.symm same]

theorem captures?_literals {text path : String} {captures : List Capture} :
    captures? (text.toList.map .literal) path.toList = some captures ↔
      path = text ∧ captures = [] := by
  have h := @captures?_literals_append text.toList path.toList [] captures
  rw [List.append_nil] at h
  simp [h, captures?_nil, ← String.toList_inj]

theorem captures?_parameter {text name path : String} {captures : List Capture} :
    captures? (text.toList.map .literal ++ [.parameter name]) path.toList = some captures ↔
      ∃ segment, IsSegment segment ∧ path = text ++ segment ∧ captures = [⟨name, segment⟩] := by
  rw [captures?_literals_append]
  constructor
  · rintro ⟨rest, split, read⟩
    rw [captures?] at read
    split_ifs at read with empty
    obtain ⟨more, ended, rfl⟩ := Option.map_eq_some_iff.1 read
    obtain ⟨consumed, rfl⟩ := captures?_nil.1 ended
    have whole : rest.takeWhile (· ≠ '/') = rest := by
      apply (List.takeWhile_prefix _).eq_of_length_le
      exact List.drop_eq_nil_iff.1 consumed
    have single : '/' ∉ rest := by
      intro slash
      rw [← whole] at slash
      simpa using List.mem_takeWhile_imp slash
    rw [whole] at empty ⊢
    refine ⟨String.ofList rest, ⟨?_, by simpa using single⟩, ?_, rfl⟩
    · simpa using empty
    · rw [← String.toList_inj, split]
      simp
  · rintro ⟨segment, ⟨filled, single⟩, rfl, rfl⟩
    refine ⟨segment.toList, by simp, ?_⟩
    rw [captures?, takeWhile_of_slashless single, if_neg (by simpa using filled)]
    simp [captures?]

theorem length_captures? {pieces : List Piece} {path : List Char} {captures : List Capture}
    (h : captures? pieces path = some captures) :
    captures.length = pieces.countP Piece.isParameter := by
  induction pieces generalizing path captures with
  | nil =>
    obtain ⟨-, rfl⟩ := captures?_nil.1 h
    rfl
  | cons piece pieces ih =>
    cases piece with
    | literal c =>
      obtain ⟨rest, -, read⟩ := (@captures?_literals_append [c] path pieces captures).1 h
      rw [List.countP_cons_of_neg (by simp [Piece.isParameter])]
      exact ih read
    | parameter name =>
      rw [captures?] at h
      split_ifs at h
      obtain ⟨more, read, rfl⟩ := Option.map_eq_some_iff.1 h
      rw [List.countP_cons_of_pos rfl, List.length_cons, ih read]

theorem beats_literals (pieces : List Piece) (text : List Char) :
    beats pieces (text.map .literal) = false := by
  induction text generalizing pieces with
  | nil => cases pieces with
    | nil => rfl
    | cons piece pieces => cases piece <;> rfl
  | cons c text ih =>
    cases pieces with
    | nil => rfl
    | cons piece pieces =>
      cases piece with
      | literal d => exact ih pieces
      | parameter name => rfl

theorem beats_literals_append (text : List Char) (pieces other : List Piece) :
    beats (text.map .literal ++ pieces) (text.map .literal ++ other) = beats pieces other := by
  induction text with
  | nil => rfl
  | cons c text ih => exact ih

end Pattern

end AccountVault.Http
